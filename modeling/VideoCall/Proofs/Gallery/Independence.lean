import VideoCall.Proofs.Gallery.Consistency

/-!
# Arrivals and announcements in any order

A track and the announcement that describes it come over different ways, and either may come first.
Announced slots are rendered as announced in the end: whether a batch is applied before some
arrivals that it describes, after them or amid them, the galleries that come out are alike. They may
differ in the order of streams and tracks, in URLs, and in which of several handles with one id is
kept.

Alike galleries are a matter of the slots alone, since a gallery in order shows what its slots hold.
An arrival and a batch that describes its slot have the same slots as the outcome in both orders,
and so the batch moves over the arrivals one by one.

## Main definitions

* `Gallery.Alike` : galleries with the same slots, index and announcements, which show the same
  tracks.
* `Gallery.amid` : some arrivals with a batch amid them.

## Main results

* `Gallery.InOrder.alike_announce_addTrack` : an arrival and a batch that describes it change
  places.
* `Gallery.alike_run_amid` : a batch has the same outcome at every place among the arrivals that it
  describes.
-/

namespace VideoCall

open Media Wire Outcome

/-- What is known of a holding apart from the handle: the id of the track, and its attribution. -/
def Holding.face (x : Holding) : TrackId × Option Attribution := (x.track.id, x.attribution)

namespace Gallery

/-- The galleries hold tracks with the same ids in the same slots under the same attributions, and
show the same tracks in the same streams. -/
structure Alike (g g' : Gallery) : Prop where
  slots : ∀ k, (g.slots.get? k).map Holding.face = (g'.slots.get? k).map Holding.face
  index : g.index = g'.index
  announced : g.announced = g'.announced
  locals : g.locals = g'.locals
  shown : ∀ u s id, (∃ t, g.Shows u s t ∧ t.id = id) ↔ ∃ t, g'.Shows u s t ∧ t.id = id

namespace Alike

variable {g g' g'' : Gallery}

theorem refl (g : Gallery) : Alike g g := ⟨fun _ => rfl, rfl, rfl, rfl, fun _ _ _ => Iff.rfl⟩

theorem symm (h : Alike g g') : Alike g' g :=
  ⟨fun k => (h.slots k).symm, h.index.symm, h.announced.symm, h.locals.symm,
    fun u s id => (h.shown u s id).symm⟩

theorem trans (h : Alike g g') (h' : Alike g' g'') : Alike g g'' :=
  ⟨fun k => (h.slots k).trans (h'.slots k), h.index.trans h'.index, h.announced.trans h'.announced,
    h.locals.trans h'.locals, fun u s id => (h.shown u s id).trans (h'.shown u s id)⟩

end Alike

namespace InOrder

variable {g g' : Gallery} (h : g.InOrder) (h' : g'.InOrder)

section Faces
include h

theorem index_iff_face {id : TrackId} {k : Slot} :
    g.index.get? id = some k ↔ ∃ a, (g.slots.get? k).map Holding.face = some (id, a) := by
  simp only [h.index_iff, Option.map_eq_some_iff, Holding.face, Prod.mk.injEq]
  constructor
  · rintro ⟨x, hx, rfl⟩
    exact ⟨x.attribution, x, hx, rfl, rfl⟩
  · rintro ⟨_, x, hx, he, -⟩
    exact ⟨x, hx, he⟩

theorem shown_iff_face {u : UserId} {s : StreamId} {id : TrackId} :
    (∃ t, g.Shows u s t ∧ t.id = id) ↔
      ∃ k, (g.slots.get? k).map Holding.face = some (id, some ⟨u, s⟩) := by
  simp only [h.shows_iff, Option.map_eq_some_iff, Holding.face, Prod.mk.injEq]
  constructor
  · rintro ⟨t, ⟨k, hk⟩, he⟩
    exact ⟨k, _, hk, he, rfl⟩
  · rintro ⟨k, ⟨t, a⟩, hk, he, rfl⟩
    exact ⟨t, ⟨k, hk⟩, he⟩

/-- The slots after an arrival, but for the handles. -/
theorem face_addTrack (slot : Slot) (t : Track) (raw : StreamId) (k : Slot) :
    ((g.addTrack slot t raw).value.slots.get? k).map Holding.face =
      if k = slot then some (t.id, some (g.announced.attribution slot raw))
      else if g.index.get? t.id = some k then none else (g.slots.get? k).map Holding.face := by
  rw [h.get?_slots_addTrack]
  split
  · -- the slot may hold another handle of the track, with the same id
    rw [Option.map_some, Holding.face, id_handle_addTrack]
  · split <;> rfl

/-- The slots after a batch, but for the handles. -/
theorem face_announce (sender : UserId) (batch : List Announcement) (k : Slot) :
    ((g.announce sender batch).value.slots.get? k).map Holding.face =
      ((g.slots.get? k).map Holding.face).map fun x => (x.1, if k.peer = sender then
        ((Announcements.ofBatch sender batch).get? k).map Announcement.attribution else x.2) := by
  rw [h.get?_slots_announce, Option.map_map, Option.map_map]
  rfl

end Faces

include h h'

/-- Galleries in order are alike if they are alike in their slots. -/
theorem alike (hs : ∀ k, (g.slots.get? k).map Holding.face = (g'.slots.get? k).map Holding.face)
    (ha : g.announced = g'.announced) (hl : g.locals = g'.locals) : Alike g g' where
  slots := hs
  index := by
    refine Table.ext_get? fun id => Option.ext fun k => ?_
    rw [h.index_iff_face, h'.index_iff_face, hs]
  announced := ha
  locals := hl
  shown u s id := by
    rw [h.shown_iff_face, h'.shown_iff_face]
    simp only [hs]

/-- An arrival leaves alike galleries alike. -/
theorem alike_addTrack (hg : Alike g g') (slot : Slot) (t : Track) (raw : StreamId) :
    Alike (g.addTrack slot t raw).value (g'.addTrack slot t raw).value := by
  refine (h.addTrack slot t raw).alike (h'.addTrack slot t raw) (fun k => ?_) ?_ ?_
  · rw [h.face_addTrack, h'.face_addTrack, hg.announced, hg.index, hg.slots]
  · rw [announced_addTrack, announced_addTrack, hg.announced]
  · rw [locals_addTrack, locals_addTrack, hg.locals]

omit h'

/-- An arrival and a batch that describes its slot change places. -/
theorem alike_announce_addTrack (slot : Slot) {batch : List Announcement}
    (hm : ∃ m ∈ batch, m.mid = slot.mid) (t : Track) (raw : StreamId) :
    Alike ((g.addTrack slot t raw).value.announce slot.peer batch).value
      ((g.announce slot.peer batch).value.addTrack slot t raw).value := by
  obtain ⟨m, hm⟩ := Announcements.exists_get?_ofBatch slot.peer batch slot hm rfl
  have h₁ := h.addTrack slot t raw
  have h₂ := h.announce slot.peer batch
  have hannounce := h.recast_announce slot.peer batch
  refine (h₁.announce slot.peer batch).alike (h₂.addTrack slot t raw) (fun k => ?_) ?_ ?_
  · rw [h₁.face_announce, h.face_addTrack, h₂.face_addTrack, hannounce.index, hannounce.announced,
      h.face_announce]
    by_cases hk : k = slot
    · subst hk
      have hget : (g.announced.replace k.peer (.ofBatch k.peer batch)).get? k = some m := by
        rw [Announcements.get?_replace, if_pos rfl, hm]
      simp [hm, Announcements.attribution_of_get? hget]
    · rw [if_neg hk, if_neg hk]
      by_cases hi : g.index.get? t.id = some k
      · rw [if_pos hi, if_pos hi]
        rfl
      · rw [if_neg hi, if_neg hi]
  · rw [announced_addTrack, hannounce.announced, (h₁.recast_announce slot.peer batch).announced]
    simp
  · rw [locals_addTrack, hannounce.locals, (h₁.recast_announce slot.peer batch).locals]
    simp

end InOrder

/-! ### Several arrivals -/

/-- What arrives on a connection: a track, in a media section, with a stream of some id. -/
structure Arrival where
  mid : Mid
  track : Track
  raw : StreamId

/-- An arrival on the connection of a peer, as a change. -/
def Arrival.change (peer : UserId) (a : Arrival) : Change := .addTrack ⟨peer, a.mid⟩ a.track a.raw

/-- Arrivals on the connection of a peer, with a batch of that peer after the first few. -/
def amid (peer : UserId) (batch : List Announcement) (arrivals : List Arrival) (i : Nat) :
    List Change :=
  (arrivals.take i).map (Arrival.change peer) ++
    .announce peer batch :: (arrivals.drop i).map (Arrival.change peer)

section Run

variable {g g' : Gallery} (peer : UserId) {batch : List Announcement} {arrivals : List Arrival}

theorem InOrder.run (h : g.InOrder) (changes : List Change) : (g.run changes).value.InOrder :=
  forEach_induction h fun _ hg change _ => hg.apply change

/-- Arrivals leave alike galleries alike. -/
theorem InOrder.alike_run (h : g.InOrder) (h' : g'.InOrder) (hg : Alike g g')
    (arrivals : List Arrival) :
    Alike (g.run (arrivals.map (Arrival.change peer))).value
      (g'.run (arrivals.map (Arrival.change peer))).value := by
  induction arrivals generalizing g g' with
  | nil => exact hg
  | cons a arrivals ih =>
    exact ih (h.addTrack _ _ _) (h'.addTrack _ _ _) (h.alike_addTrack h' hg _ _ _)

/-- A batch after the arrivals that it describes has the same outcome as the batch before them. -/
theorem InOrder.alike_announce_run (h : g.InOrder)
    (hm : ∀ a ∈ arrivals, ∃ m ∈ batch, m.mid = a.mid) :
    Alike ((g.run (arrivals.map (Arrival.change peer))).value.announce peer batch).value
      ((g.announce peer batch).value.run (arrivals.map (Arrival.change peer))).value := by
  induction arrivals generalizing g with
  | nil => exact .refl _
  | cons a arrivals ih =>
    have h₁ := h.addTrack ⟨peer, a.mid⟩ a.track a.raw
    have hswap := h.alike_announce_addTrack ⟨peer, a.mid⟩ (hm a List.mem_cons_self) a.track a.raw
    exact (ih h₁ fun b hb => hm b (List.mem_cons_of_mem _ hb)).trans
      ((h₁.announce peer batch).alike_run peer
        ((h.announce peer batch).addTrack _ _ _) hswap arrivals)

/-- A batch amid the arrivals that it describes has the same outcome as the batch before them. -/
theorem InOrder.alike_amid (h : g.InOrder) (hm : ∀ a ∈ arrivals, ∃ m ∈ batch, m.mid = a.mid)
    (i : Nat) :
    Alike (g.run (amid peer batch arrivals i)).value
      (g.run (amid peer batch arrivals 0)).value := by
  have hfirst := h.alike_announce_run peer fun a ha => hm a (List.mem_of_mem_take (i := i) ha)
  have h₁ := (h.run ((arrivals.take i).map (Arrival.change peer))).announce peer batch
  have h₂ := (h.announce peer batch).run ((arrivals.take i).map (Arrival.change peer))
  have hrest := h₁.alike_run peer h₂ hfirst (arrivals.drop i)
  have hl : (g.run (amid peer batch arrivals i)).value =
      (((g.run ((arrivals.take i).map (Arrival.change peer))).value.announce peer batch).value.run
        ((arrivals.drop i).map (Arrival.change peer))).value :=
    value_run_append _ _ _
  have hr : (g.run (amid peer batch arrivals 0)).value =
      (((g.announce peer batch).value.run ((arrivals.take i).map (Arrival.change peer))).value.run
        ((arrivals.drop i).map (Arrival.change peer))).value := by
    rw [← value_run_append, ← List.map_append, List.take_append_drop]
    rfl
  rw [hl, hr]
  exact hrest

/-- Whether a batch is applied before, after or amid arrivals of its sender that it describes, the
galleries that come out are alike. Arrivals may supersede tracks of the gallery or each other, and
may come again. -/
theorem alike_run_amid (h : g.Reachable) (hm : ∀ a ∈ arrivals, ∃ m ∈ batch, m.mid = a.mid)
    (i j : Nat) :
    Alike (g.run (amid peer batch arrivals i)).value (g.run (amid peer batch arrivals j)).value :=
  (h.inOrder.alike_amid peer hm i).trans (h.inOrder.alike_amid peer hm j).symm

/-- A screen supersedes the picture in its slot, and a voice comes back in another; their sender
describes both before either comes, or after. -/
theorem alike_run_amid_two :
    let g := ((empty (.fresh fun _ _ => false)).run
      [.addTrack ⟨⟨"ann"⟩, ⟨"0"⟩⟩ ⟨0, ⟨"picture"⟩, .video, "front"⟩ ⟨"camera"⟩,
        .addTrack ⟨⟨"ann"⟩, ⟨"1"⟩⟩ ⟨1, ⟨"voice"⟩, .audio, ""⟩ ⟨"camera"⟩]).value
    let batch : List Announcement :=
      [⟨⟨"0"⟩, .video, ⟨"ann"⟩, ⟨"slides"⟩⟩, ⟨⟨"2"⟩, .audio, ⟨"bob"⟩, ⟨"talk"⟩⟩]
    let arrivals : List Arrival :=
      [⟨⟨"0"⟩, ⟨2, ⟨"screen"⟩, .video, ""⟩, ⟨"camera"⟩⟩,
        ⟨⟨"2"⟩, ⟨3, ⟨"voice"⟩, .audio, ""⟩, ⟨"camera"⟩⟩]
    Alike (g.run (amid ⟨"ann"⟩ batch arrivals 0)).value
      (g.run (amid ⟨"ann"⟩ batch arrivals 2)).value :=
  alike_run_amid ⟨"ann"⟩ ⟨_, _, rfl⟩ (by decide) 0 2

end Run

end Gallery

end VideoCall

import VideoCall.Proofs.Gallery.Independence

/-!
# Connections do not meet

What happens on a connection concerns its own slots. A slot of another connection keeps its track
under its attribution, unless that very track arrives here and so leaves there; what the other
sender announced stays as well. And what becomes of the slots of a connection depends on those slots
and their announcements alone.

Both together make what happens on two connections change places, as long as no track comes from one
to the other: every slot belongs to one of the two, and is not touched by what happens on the other
one, or to neither, and then it can only lose its track.

## Main definitions

* `Gallery.Deed` : what happens on a connection.
* `Gallery.AgreeOn` : two galleries have the same slots and announcements of a connection.
* `Gallery.Coincide` : two galleries differ in URLs and in the order of streams and tracks alone.

## Main results

* `Gallery.InOrder.get?_slots_deed` : the slots of other connections after a deed.
* `Gallery.InOrder.agreeOn_deed` : a deed has the same outcome on galleries that agree.
* `Gallery.coincide_swap` : deeds on two connections change places.
-/

namespace VideoCall.Gallery

open Media Wire Outcome

/-- What happens on a connection: a track arrives, a batch of announcements comes from the peer, or
the connection goes. -/
inductive Deed
  | arrive (a : Arrival)
  | describe (batch : List Announcement)
  | leave

namespace Deed

/-- A deed on the connection of a peer, as a change. -/
def change (peer : UserId) : Deed → Change
  | arrive a => a.change peer
  | describe batch => .announce peer batch
  | leave => .removePeer peer

/-- The track that arrives. -/
def track? : Deed → Option TrackId
  | arrive a => some a.track.id
  | describe _ => none
  | leave => none

/-- What is announced for a slot of the connection after a deed, by what was announced for it. -/
def announced? (peer : UserId) (slot : Slot) (before : Option Announcement) :
    Deed → Option Announcement
  | arrive _ => before
  | describe batch => (Announcements.ofBatch peer batch).get? slot
  | leave => before

end Deed

/-! ### What a deed leaves alone -/

namespace InOrder

variable {g : Gallery} (h : g.InOrder) (p : UserId) (d : Deed)
include h

/-- Only a batch changes what is announced, and only for the slots of its sender. -/
theorem get?_announced_deed (k : Slot) :
    (g.apply (d.change p)).value.announced.get? k =
      if k.peer = p then d.announced? p k (g.announced.get? k) else g.announced.get? k := by
  cases d with
  | arrive a =>
    have hkeep : (g.apply ((Deed.arrive a).change p)).value.announced = g.announced :=
      announced_addTrack ⟨p, a.mid⟩ a.track a.raw
    rw [hkeep]
    exact (ite_self _).symm
  | describe batch =>
    have hnews : (g.apply ((Deed.describe batch).change p)).value.announced =
        g.announced.replace p (.ofBatch p batch) :=
      (h.recast_announce p batch).announced
    rw [hnews]
    exact Announcements.get?_replace g.announced p batch k
  | leave =>
    have hkeep : (g.apply (Deed.leave.change p)).value.announced = g.announced :=
      announced_removePeer g p
    rw [hkeep]
    exact (ite_self _).symm

theorem locals_deed : (g.apply (d.change p)).value.locals = g.locals := by
  cases d with
  | arrive a => exact locals_addTrack ⟨p, a.mid⟩ a.track a.raw
  | describe batch => exact (h.recast_announce p batch).locals
  | leave => exact locals_removePeer g p

end InOrder

namespace InOrder

variable {g g' : Gallery} {p q : UserId} {d : Deed}

/-- A slot of another connection keeps what it holds, unless that is the track that arrives. -/
theorem get?_slots_deed (h : g.InOrder) (d : Deed) {k : Slot} (hk : k.peer ≠ p) {x : Holding} :
    (g.apply (d.change p)).value.slots.get? k = some x ↔
      g.slots.get? k = some x ∧ d.track? ≠ some x.track.id := by
  cases d with
  | arrive a =>
    have hne : k ≠ ⟨p, a.mid⟩ := fun e => hk (congrArg Slot.peer e)
    have hget := h.get?_slots_addTrack ⟨p, a.mid⟩ a.track a.raw k
    rw [if_neg hne] at hget
    refine (Eq.congr_left hget).trans ?_
    split
    · rename_i hi
      obtain ⟨y, hy, hid⟩ := (h.index_iff _ _).1 hi
      refine ⟨nofun, fun hx => absurd ?_ hx.2⟩
      rw [← Option.some.inj (hy.symm.trans hx.1), hid]
      rfl
    · rename_i hi
      refine ⟨fun hx => ⟨hx, fun he => hi ?_⟩, And.left⟩
      rw [Option.some.inj he]
      exact h.index_of_slot hx
  | describe batch =>
    refine (Eq.congr_left (h.get?_slots_announce p batch k)).trans ?_
    simp only [if_neg hk, Option.map_id']
    exact (and_iff_left nofun).symm
  | leave =>
    refine (Eq.congr_left (g.get?_slots_removePeer p k)).trans ?_
    rw [if_neg hk]
    exact (and_iff_left nofun).symm

end InOrder

/-! ### Galleries that agree on a connection -/

/-- The galleries hold the same in the slots of a connection, and the same was announced for
them. -/
structure AgreeOn (p : UserId) (g g' : Gallery) : Prop where
  slots : ∀ k, k.peer = p → g'.slots.get? k = g.slots.get? k
  announced : ∀ k, k.peer = p → g'.announced.get? k = g.announced.get? k

/-- The track that arrives by a deed does not sit in a slot of the given connection. -/
def Deed.AwayFrom (d : Deed) (p : UserId) (g : Gallery) : Prop :=
  ∀ k x, k.peer = p → g.slots.get? k = some x → d.track? ≠ some x.track.id

namespace InOrder

variable {g g' : Gallery} {p q : UserId}

theorem awayFrom (h : g.InOrder) {d : Deed}
    (hd : ∀ id ∈ d.track?, ∀ k ∈ g.index.get? id, k.peer ≠ p) : d.AwayFrom p g :=
  fun k x hk hx he => hd x.track.id he k (h.index_of_slot hx) hk

/-- What happens on a connection is nothing to another one, unless a track comes from there. -/
theorem agreeOn_of_ne (h : g.InOrder) {d : Deed} (hpq : p ≠ q) (hd : d.AwayFrom q g) :
    AgreeOn q g (g.apply (d.change p)).value where
  slots k hk := Option.ext fun x => by
    rw [h.get?_slots_deed d fun e => hpq (e.symm.trans hk)]
    exact and_iff_left_of_imp (hd k x hk)
  announced k hk := (h.get?_announced_deed p d k).trans (if_neg fun e => hpq (e.symm.trans hk))

/-- What happens on a connection has the same outcome there in galleries that agree on it. -/
theorem agreeOn_deed (h : g.InOrder) (h' : g'.InOrder) (hg : AgreeOn p g g') (d : Deed) :
    AgreeOn p (g.apply (d.change p)).value (g'.apply (d.change p)).value where
  slots k hk := by
    cases d with
    | arrive a =>
      have hattr : g'.announced.attribution ⟨p, a.mid⟩ a.raw =
          g.announced.attribution ⟨p, a.mid⟩ a.raw := by
        rw [Announcements.attribution, hg.announced _ rfl, Announcements.attribution]
      have hindex : g'.index.get? a.track.id = some k ↔ g.index.get? a.track.id = some k := by
        rw [h.index_iff, h'.index_iff, hg.slots k hk]
      refine (h'.get?_slots_addTrack ⟨p, a.mid⟩ a.track a.raw k).trans ?_
      refine Eq.trans ?_ (h.get?_slots_addTrack ⟨p, a.mid⟩ a.track a.raw k).symm
      simp only [hattr, hindex, hg.slots ⟨p, a.mid⟩ rfl, hg.slots k hk]
    | describe batch =>
      refine (h'.get?_slots_announce p batch k).trans ?_
      rw [hg.slots k hk]
      exact (h.get?_slots_announce p batch k).symm
    | leave =>
      refine (g'.get?_slots_removePeer p k).trans ?_
      rw [hg.slots k hk]
      exact (g.get?_slots_removePeer p k).symm
  announced k hk := by
    rw [h'.get?_announced_deed, h.get?_announced_deed, hg.announced k hk]

/-- A track that is away from a connection stays so, whatever happens there but its arrival. -/
theorem awayFrom_deed (h : g.InOrder) {a b : Deed} (hb : b.AwayFrom p g)
    (hab : ∀ id ∈ a.track?, id ∉ b.track?) : b.AwayFrom p (g.apply (a.change p)).value := by
  intro k x hk hx hid
  cases a with
  | arrive a =>
    have hget := (h.get?_slots_addTrack ⟨p, a.mid⟩ a.track a.raw k).symm.trans hx
    split at hget
    · obtain rfl := Option.some.inj hget
      rw [id_handle_addTrack] at hid
      exact hab a.track.id rfl hid
    · split at hget
      · cases hget
      · exact hb k x hk hget hid
  | describe batch =>
    have hget := (h.get?_slots_announce p batch k).symm.trans hx
    obtain ⟨y, hy, rfl⟩ := Option.map_eq_some_iff.1 hget
    exact hb k y hk hy hid
  | leave =>
    have hget := (g.get?_slots_removePeer p k).symm.trans hx
    rw [if_pos hk] at hget
    cases hget

/-- On each of two connections it does not matter what happens first. -/
theorem agreeOn_swap (h : g.InOrder) (hpq : p ≠ q) {a b : Deed} (hb : b.AwayFrom p g)
    (hab : ∀ id ∈ a.track?, id ∉ b.track?) :
    AgreeOn p ((g.apply (b.change q)).value.apply (a.change p)).value
      ((g.apply (a.change p)).value.apply (b.change q)).value := by
  have hfirst := h.agreeOn_deed (h.apply (b.change q)) (h.agreeOn_of_ne hpq.symm hb) a
  have hlast := (h.apply (a.change p)).agreeOn_of_ne hpq.symm (h.awayFrom_deed hb hab)
  exact ⟨fun k hk => (hlast.slots k hk).trans (hfirst.slots k hk).symm,
    fun k hk => (hlast.announced k hk).trans (hfirst.announced k hk).symm⟩

end InOrder

/-! ### Deeds change places -/

/-- The galleries hold the same tracks in the same slots under the same attributions, and show the
same tracks in the same streams. They may differ in URLs, and in the order of streams and tracks. -/
structure Coincide (g g' : Gallery) : Prop where
  slots : g.slots = g'.slots
  index : g.index = g'.index
  announced : g.announced = g'.announced
  locals : g.locals = g'.locals
  shows : ∀ u s t, g.Shows u s t ↔ g'.Shows u s t

namespace InOrder

variable {g g' : Gallery}

/-- Galleries in order coincide if they do so in their slots. -/
theorem coincide (h : g.InOrder) (h' : g'.InOrder) (hs : g.slots = g'.slots)
    (ha : g.announced = g'.announced) (hl : g.locals = g'.locals) : Coincide g g' where
  slots := hs
  index := Table.ext_get? fun id => Option.ext fun k => by rw [h.index_iff, h'.index_iff, hs]
  announced := ha
  locals := hl
  shows u s t := by rw [h.shows_iff, h'.shows_iff, hs]

/-- Deeds on two connections change places, if no track comes from one to the other. -/
theorem coincide_deeds (h : g.InOrder) {p q : UserId} (hpq : p ≠ q) {a b : Deed}
    (ha : a.AwayFrom q g) (hb : b.AwayFrom p g) (hab : ∀ id ∈ a.track?, id ∉ b.track?) :
    Coincide ((g.apply (a.change p)).value.apply (b.change q)).value
      ((g.apply (b.change q)).value.apply (a.change p)).value := by
  have h₁ := h.apply (a.change p)
  have h₂ := h.apply (b.change q)
  have hp := h.agreeOn_swap hpq hb hab
  have hq := h.agreeOn_swap hpq.symm ha fun id hid hid' => hab id hid' hid
  refine (h₁.apply (b.change q)).coincide (h₂.apply (a.change p)) ?_ ?_ ?_
  · refine Table.ext_get? fun k => ?_
    by_cases hkp : k.peer = p
    · exact hp.slots k hkp
    · by_cases hkq : k.peer = q
      · exact (hq.slots k hkq).symm
      · -- a slot of neither connection can only lose its track, to one or the other
        refine Option.ext fun x => ?_
        rw [h₁.get?_slots_deed b hkq, h.get?_slots_deed a hkp, h₂.get?_slots_deed a hkp,
          h.get?_slots_deed b hkq]
        exact and_right_comm
  · refine Table.ext_get? fun k => ?_
    by_cases hkp : k.peer = p
    · exact hp.announced k hkp
    · by_cases hkq : k.peer = q
      · exact (hq.announced k hkq).symm
      · simp only [h₁.get?_announced_deed, h₂.get?_announced_deed, h.get?_announced_deed,
          if_neg hkp, if_neg hkq]
  · rw [h₁.locals_deed, h₂.locals_deed, h.locals_deed, h.locals_deed]

end InOrder

/-- What happens on two connections leads to galleries that coincide, whichever happens first: a
track arrives, a batch of announcements comes, or the connection goes. A track that arrives must not
sit in a slot of the other connection, and not arrive there too. -/
theorem coincide_swap {g : Gallery} (h : g.Reachable) {p q : UserId} (hpq : p ≠ q) (a b : Deed)
    (ha : ∀ id ∈ a.track?, ∀ k ∈ g.index.get? id, k.peer ≠ q)
    (hb : ∀ id ∈ b.track?, ∀ k ∈ g.index.get? id, k.peer ≠ p)
    (hab : ∀ id ∈ a.track?, id ∉ b.track?) :
    Coincide (g.run [a.change p, b.change q]).value (g.run [b.change q, a.change p]).value :=
  h.inOrder.coincide_deeds hpq (h.inOrder.awayFrom ha) (h.inOrder.awayFrom hb) hab

/-- A picture of Ann and a voice of Bob share a stream. Ann's slot gets a new picture, which sat in
a slot of Cleo, while Bob's batch moves the voice out of the stream. -/
theorem coincide_swap_shared_stream :
    let g := ((empty (.fresh fun _ _ => false)).run
      [.announce ⟨"bob"⟩ [⟨⟨"0"⟩, .audio, ⟨"ann"⟩, ⟨"camera"⟩⟩],
        .addTrack ⟨⟨"ann"⟩, ⟨"0"⟩⟩ ⟨0, ⟨"picture"⟩, .video, "front"⟩ ⟨"camera"⟩,
        .addTrack ⟨⟨"bob"⟩, ⟨"0"⟩⟩ ⟨1, ⟨"voice"⟩, .audio, ""⟩ ⟨"camera"⟩,
        .addTrack ⟨⟨"cleo"⟩, ⟨"0"⟩⟩ ⟨2, ⟨"slides"⟩, .video, ""⟩ ⟨"desktop"⟩]).value
    let a : Deed := .arrive ⟨⟨"0"⟩, ⟨3, ⟨"slides"⟩, .video, ""⟩, ⟨"camera"⟩⟩
    let b : Deed := .describe [⟨⟨"0"⟩, .audio, ⟨"bob"⟩, ⟨"talk"⟩⟩]
    Coincide (g.run [a.change ⟨"ann"⟩, b.change ⟨"bob"⟩]).value
      (g.run [b.change ⟨"bob"⟩, a.change ⟨"ann"⟩]).value :=
  coincide_swap ⟨_, _, rfl⟩ (by decide) _ _ (by decide) (by decide) (by decide)

end VideoCall.Gallery

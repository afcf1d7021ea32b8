import VideoCall.Proofs.Gallery.Grouping

/-!
# Galleries in order

A gallery records where each track is in four ways: in its slot, in the index of tracks, under the
attribution of its slot, and in a stream of a participant. It is in order when the four agree in
both directions: the index is the inverse of the slots, and the streams group exactly the attributed
slots. The direction that the definitions rely on alone, from the index to the slots, would not
survive the arrival of a track.

## Main definitions

* `Gallery.Attributed` : the tracks in the slots, under their attributions.
* `Gallery.InOrder` : index, slots and streams agree.
* `Gallery.Recast` : one gallery has the slots of another with other attributions.

## Main results

* `Gallery.Grouped.attach`, `Gallery.Grouped.detach` : what attaching and detaching do to the
  streams.
* `Gallery.get?_slots_removeTrack` : a track that is taken out keeps its slot.
* `Gallery.InOrder.removeTrack` : the order survives it.
-/

namespace VideoCall

open Media

/-- The holding with its track attributed to no one. -/
def Holding.clear (h : Holding) : Holding := { h with attribution := none }

namespace Gallery

/-! ### Attaching and detaching -/

section Frames

variable (g : Gallery) (a : Attribution) (t : Track) (id : TrackId)

/-- Only the streams of participants and the source of URLs change when a track is attached. -/
theorem value_attach :
    ∃ users urls, (g.attach a t).value = { g with users := users, urls := urls } := by
  dsimp only [attach]
  split
  · exact ⟨_, g.urls, rfl⟩
  · exact ⟨_, _, rfl⟩

@[simp]
theorem slots_attach : (g.attach a t).value.slots = g.slots := by
  obtain ⟨users, urls, h⟩ := g.value_attach a t
  rw [h]

@[simp]
theorem index_attach : (g.attach a t).value.index = g.index := by
  obtain ⟨users, urls, h⟩ := g.value_attach a t
  rw [h]

@[simp]
theorem announced_attach : (g.attach a t).value.announced = g.announced := by
  obtain ⟨users, urls, h⟩ := g.value_attach a t
  rw [h]

@[simp]
theorem locals_attach : (g.attach a t).value.locals = g.locals := by
  obtain ⟨users, urls, h⟩ := g.value_attach a t
  rw [h]

/-- Only the streams of participants change when a track is detached. -/
theorem value_detach : ∃ users, (g.detach a id).value = { g with users := users } := by
  unfold detach
  split
  · exact ⟨g.users, rfl⟩
  · split
    · exact ⟨g.users, rfl⟩
    · exact ⟨_, rfl⟩

@[simp]
theorem slots_detach : (g.detach a id).value.slots = g.slots := by
  obtain ⟨users, h⟩ := g.value_detach a id
  rw [h]

@[simp]
theorem index_detach : (g.detach a id).value.index = g.index := by
  obtain ⟨users, h⟩ := g.value_detach a id
  rw [h]

@[simp]
theorem announced_detach : (g.detach a id).value.announced = g.announced := by
  obtain ⟨users, h⟩ := g.value_detach a id
  rw [h]

@[simp]
theorem locals_detach : (g.detach a id).value.locals = g.locals := by
  obtain ⟨users, h⟩ := g.value_detach a id
  rw [h]

end Frames

namespace Grouped

variable {g : Gallery} {P : UserId → StreamId → Track → Prop}

/-- A track that is attached comes under its attribution, if no track with its id was there. -/
theorem attach (h : Grouped g.users P) {a : Attribution} {t : Track}
    (hnew : ∀ t', P a.user a.stream t' → t'.id ≠ t.id) :
    Grouped (g.attach a t).value.users
      fun u s t' => P u s t' ∨ u = a.user ∧ s = a.stream ∧ t' = t := by
  have hstreams := streams_getD g.users a.user
  have huser : ((g.users.get? a.user).getD ⟨a.user, []⟩).user = a.user := by
    cases hx : g.users.get? a.user with
    | none => rfl
    | some x => exact (h.entry _ _ hx).1
  have hother : ∀ u' s t', u' ≠ a.user →
      (P u' s t' ↔ P u' s t' ∨ u' = a.user ∧ s = a.stream ∧ t' = t) :=
    fun u' s t' hu => ⟨Or.inl, fun hp => hp.resolve_right fun hc => hu hc.1⟩
  have hown : ∀ s t', (P a.user s t' ∨ s = a.stream ∧ t' = t ↔
      P a.user s t' ∨ a.user = a.user ∧ s = a.stream ∧ t' = t) := by
    simp
  dsimp only [Gallery.attach]
  split
  · rename_i hany
    rw [hstreams] at hany
    simp only [List.any_eq_true, decide_eq_true_eq] at hany
    have hl := (((h.groups a.user).addTo hany hnew).congr hown)
    refine h.insert huser ?_ (by simpa [hstreams] using hl) hother
    obtain ⟨r, hr, -⟩ := hany
    simp only [hstreams, addTo]
    exact List.ne_nil_of_mem (List.mem_map_of_mem hr)
  · rename_i hany
    rw [hstreams] at hany
    simp only [List.any_eq_true, decide_eq_true_eq, not_exists, not_and] at hany
    have hl := ((h.groups a.user).append hany (t := t) (g.urls.mint? a.stream)).congr hown
    exact h.insert huser (by simp) (by simpa [hstreams] using hl) hother

/-- A track that is detached leaves its attribution. -/
theorem detach (h : Grouped g.users P) (a : Attribution) (id : TrackId) :
    Grouped (g.detach a id).value.users
      fun u s t' => P u s t' ∧ ¬ (u = a.user ∧ s = a.stream ∧ t'.id = id) := by
  have hother : ∀ u' s t', u' ≠ a.user →
      (P u' s t' ↔ P u' s t' ∧ ¬ (u' = a.user ∧ s = a.stream ∧ t'.id = id)) :=
    fun u' s t' hu => ⟨fun hp => ⟨hp, fun hc => hu hc.1⟩, And.left⟩
  unfold Gallery.detach
  split
  · rename_i hnone
    refine h.congr fun u s t' => ⟨fun hp => ⟨hp, ?_⟩, And.left⟩
    rintro ⟨rfl, -, -⟩
    exact h.not_of_get?_eq_none hnone s t' hp
  · rename_i x hx
    have hg := h.groups_of_get? hx
    split
    · rename_i hfind
      refine h.congr fun u s t' => ⟨fun hp => ⟨hp, ?_⟩, And.left⟩
      rintro ⟨rfl, rfl, -⟩
      obtain ⟨r, hr, he, -⟩ := (hg.mem_iff _ _).2 hp
      simpa [he] using List.find?_eq_none.1 hfind r hr
    · refine h.setShown (h.entry _ _ hx).1 ((hg.removeFrom a.stream id).congr fun s t' => ?_) hother
      simp

end Grouped

/-! ### Order -/

/-- The tracks that sit in slots, under the attributions of the slots. -/
def Attributed (slots : Table Slot Holding) (u : UserId) (s : StreamId) (t : Track) : Prop :=
  ∃ k, slots.get? k = some ⟨t, some ⟨u, s⟩⟩

/-- A gallery is in order: the index is the inverse of the slots, the streams of the participants
group exactly the attributed tracks, and each captured stream stands at its own type. -/
structure InOrder (g : Gallery) : Prop where
  index_iff : ∀ id k, g.index.get? id = some k ↔ ∃ h, g.slots.get? k = some h ∧ h.track.id = id
  grouped : Grouped g.users (Attributed g.slots)
  typed : ∀ type m, g.locals.get? type = some m → m.type = type

theorem inOrder_empty (urls : UrlSource) : (empty urls).InOrder where
  index_iff _ _ := by
    constructor
    · intro h
      cases h
    · rintro ⟨_, h, -⟩
      cases h
  grouped := .empty fun _ _ _ ⟨_, h⟩ => by cases h
  typed _ _ h := by cases h

namespace InOrder

variable {g : Gallery}

theorem index_of_slot (h : g.InOrder) {k : Slot} {x : Holding} (hx : g.slots.get? k = some x) :
    g.index.get? x.track.id = some k :=
  (h.index_iff _ _).2 ⟨x, hx, rfl⟩

/-- The order does not concern what is announced. -/
theorem withAnnounced (h : g.InOrder) (a : Announcements) : ({ g with announced := a }).InOrder :=
  ⟨h.index_iff, h.grouped, h.typed⟩

/-- Tracks with one id sit in one slot. -/
theorem slot_unique (h : g.InOrder) {k k' : Slot} {x x' : Holding} (hx : g.slots.get? k = some x)
    (hx' : g.slots.get? k' = some x') (he : x.track.id = x'.track.id) : k = k' :=
  Option.some.inj ((h.index_of_slot hx).symm.trans (he ▸ h.index_of_slot hx'))

end InOrder

/-! ### Other attributions -/

/-- A track is in a slot whatever the attribution of the slot is changed to. -/
theorem exists_track_iff (f : Option Attribution → Option Attribution) (o : Option Holding)
    (id : TrackId) :
    (∃ x, o.map (fun x => { x with attribution := f x.attribution }) = some x ∧ x.track.id = id) ↔
      ∃ x, o = some x ∧ x.track.id = id := by
  cases o <;> simp

/-- The gallery `g'` is in order and has all tracks of `g` where they are in `g`, with their
attributions changed by `f`. -/
structure Recast (g : Gallery) (f : Slot → Option Attribution → Option Attribution) (g' : Gallery) :
    Prop where
  inOrder : g'.InOrder
  index : g'.index = g.index
  announced : g'.announced = g.announced
  locals : g'.locals = g.locals
  slots : ∀ k, g'.slots.get? k =
    (g.slots.get? k).map fun x => { x with attribution := f k x.attribution }

namespace Recast

variable {g g' g'' : Gallery} {f f' : Slot → Option Attribution → Option Attribution}

theorem refl (h : g.InOrder)
    (hf : ∀ k x, g.slots.get? k = some x → f k x.attribution = x.attribution) :
    Recast g f g := by
  refine ⟨h, rfl, rfl, rfl, fun k => ?_⟩
  cases hk : g.slots.get? k with
  | none => rfl
  | some x => rw [Option.map_some, hf k x hk]

theorem trans (h : Recast g f g') (h' : Recast g' f' g'') :
    Recast g (fun k a => f' k (f k a)) g'' where
  inOrder := h'.inOrder
  index := h'.index.trans h.index
  announced := h'.announced.trans h.announced
  locals := h'.locals.trans h.locals
  slots k := by
    rw [h'.slots, h.slots, Option.map_map]
    rfl

theorem congr (h : Recast g f g')
    (hf : ∀ k x, g.slots.get? k = some x → f k x.attribution = f' k x.attribution) :
    Recast g f' g' where
  inOrder := h.inOrder
  index := h.index
  announced := h.announced
  locals := h.locals
  slots k := by
    rw [h.slots]
    cases hk : g.slots.get? k with
    | none => rfl
    | some x => rw [Option.map_some, Option.map_some, hf k x hk]

end Recast

/-! ### A track is no longer rendered -/

section Frames

variable (g : Gallery) (id : TrackId)

@[simp]
theorem index_removeTrack : (g.removeTrack id).value.index = g.index := by
  unfold removeTrack
  repeat' split
  all_goals simp

@[simp]
theorem announced_removeTrack : (g.removeTrack id).value.announced = g.announced := by
  unfold removeTrack
  repeat' split
  all_goals simp

@[simp]
theorem locals_removeTrack : (g.removeTrack id).value.locals = g.locals := by
  unfold removeTrack
  repeat' split
  all_goals simp

theorem get?_slots_removeTrack (k : Slot) :
    (g.removeTrack id).value.slots.get? k =
      if g.index.get? id = some k then (g.slots.get? k).map Holding.clear else g.slots.get? k := by
  unfold removeTrack
  split
  · rename_i hi
    simp [hi]
  · rename_i k' hi
    by_cases hk : k' = k
    · subst hk
      rw [hi, if_pos rfl]
      split
      · rename_i hs
        simp [hs]
      · rename_i x hs
        split
        · rename_i ha
          simp [hs, Holding.clear, ← ha]
        · simp [hs, Holding.clear]
    · have hne : ¬ some k' = some k := fun e => hk (Option.some.inj e)
      rw [hi, if_neg hne]
      repeat' split
      all_goals simp [Ne.symm hk]

end Frames

/-- The streams still group the attributed tracks after a track was taken out, provided that the
index leads to its slot, and to no other. -/
theorem Grouped.removeTrack {g : Gallery} {id : TrackId} (h : Grouped g.users (Attributed g.slots))
    (hidx : ∀ k x, g.slots.get? k = some x → g.index.get? id = some k → x.track.id = id)
    (hsole : ∀ k t a, g.slots.get? k = some ⟨t, some a⟩ → t.id = id → g.index.get? id = some k) :
    Grouped (g.removeTrack id).value.users (Attributed (g.removeTrack id).value.slots) := by
  unfold Gallery.removeTrack
  split
  · exact h
  · rename_i k hi
    split
    · exact h
    · rename_i x hs
      split
      · exact h
      · rename_i a ha
        have hid : x.track.id = id := hidx k x hs hi
        have hd :=
          h.detach (g := { g with slots := g.slots.insert k { x with attribution := none } }) a id
        refine hd.congr fun u s t => ?_
        simp only [Attributed, Outcome.value_bind, Outcome.value_pure, slots_detach,
          Table.get?_insert, Std.LawfulEqCmp.compare_eq_iff_eq]
        constructor
        · rintro ⟨⟨q, hq⟩, hne⟩
          refine ⟨q, ?_⟩
          rw [if_neg, hq]
          rintro rfl
          obtain rfl := Option.some.inj (hs.symm.trans hq)
          obtain rfl := Option.some.inj ha
          exact hne ⟨rfl, rfl, hid⟩
        · rintro ⟨q, hq⟩
          split at hq
          · cases hq
          · rename_i hqk
            refine ⟨⟨q, hq⟩, fun hc => hqk ?_⟩
            exact Option.some.inj ((hsole q t ⟨u, s⟩ hq hc.2.2).symm.trans hi)

theorem InOrder.removeTrack {g : Gallery} (h : g.InOrder) (id : TrackId) :
    (g.removeTrack id).value.InOrder where
  index_iff i k := by
    rw [index_removeTrack, h.index_iff, get?_slots_removeTrack]
    split
    · exact (exists_track_iff (fun _ => none) _ i).symm
    · rfl
  grouped := by
    refine h.grouped.removeTrack (fun k x hx hi => ?_) fun k t a hx hid => hid ▸ h.index_of_slot hx
    obtain ⟨x', hx', he⟩ := (h.index_iff _ _).1 hi
    exact Option.some.inj (hx.symm.trans hx') ▸ he
  typed := by
    rw [locals_removeTrack]
    exact h.typed

/-- A track that is taken out of its stream stays in its slot. -/
theorem InOrder.recast_removeTrack {g : Gallery} (h : g.InOrder) (id : TrackId) :
    Recast g (fun k a => if g.index.get? id = some k then none else a)
      (g.removeTrack id).value where
  inOrder := h.removeTrack id
  index := index_removeTrack g id
  announced := announced_removeTrack g id
  locals := locals_removeTrack g id
  slots k := by
    rw [get?_slots_removeTrack]
    split
    · rfl
    · simp

end Gallery

end VideoCall

import VideoCall.Gallery.History
import VideoCall.Proofs.Gallery.Order

/-!
# Departures

A participant whose streams go leaves the tracks behind in their slots, attributed to no one. A
connection that goes takes its slots with it. Both keep the gallery in order, and so does everything
that happens to the streams captured here, which have no part in the slots.

## Main results

* `Gallery.InOrder.recast_unassociate` : the tracks of a participant are attributed to no one.
* `Gallery.InOrder.removePeer`, `Gallery.InOrder.reset` : the order survives the end of a
  connection, and of the call.
* `Gallery.InOrder.addLocal`, `Gallery.InOrder.removeLocal`, `Gallery.InOrder.setMirror` : captured
  streams have no part in the order but their own types.
-/

namespace VideoCall.Gallery

open Media Outcome

/-! ### The streams of a participant go -/

theorem get?_clearAttributions (g : Gallery) (m : Stream) (k : Slot) :
    (g.clearAttributions m).get? k =
      if ∃ t ∈ m.tracks, g.index.get? t.id = some k then (g.slots.get? k).map Holding.clear
      else g.slots.get? k := by
  unfold clearAttributions
  generalize g.slots = slots
  induction m.tracks generalizing slots with
  | nil => simp
  | cons t ts ih =>
    rw [List.foldl_cons, ih]
    cases hi : g.index.get? t.id with
    | none => simp [hi]
    | some k' =>
      by_cases hk : k' = k
      · subst hk
        simp only [Table.get?_modify, Std.ReflCmp.compare_self, if_true, List.exists_mem_cons_iff,
          hi, true_or]
        cases slots.get? k' with
        | none => simp
        | some x => split <;> rfl
      · simp [Table.get?_modify, hi, hk, Ne.symm hk]

/-- The tracks of several streams are attributed to no one, and nothing else changes. -/
theorem value_dropStreams (g : Gallery) (l : List RemoteStream) :
    ∃ slots, (forEach dropStream l g).value = { g with slots := slots } ∧
      ∀ k, slots.get? k =
        if ∃ r ∈ l, ∃ t ∈ r.stream.tracks, g.index.get? t.id = some k then
          (g.slots.get? k).map Holding.clear
        else g.slots.get? k := by
  induction l generalizing g with
  | nil => exact ⟨g.slots, rfl, by simp⟩
  | cons r l ih =>
    obtain ⟨slots, hv, hs⟩ := ih (g.dropStream r).value
    refine ⟨slots, hv, fun k => ?_⟩
    have h₁ : (g.dropStream r).value.slots.get? k = _ := g.get?_clearAttributions r.stream k
    rw [hs, h₁]
    change (if ∃ r ∈ l, ∃ t ∈ r.stream.tracks, g.index.get? t.id = some k then _ else _) = _
    by_cases hr : ∃ t ∈ r.stream.tracks, g.index.get? t.id = some k
    · simp only [hr, if_true, List.exists_mem_cons_iff, true_or, Option.map_map]
      split <;> rfl
    · simp only [hr, if_false, List.exists_mem_cons_iff, false_or]

/-- A holding whose attribution counts only if it is not to the participant. -/
theorem filter_attribution (x : Holding) (user : UserId) :
    { x with attribution := x.attribution.filter fun a => a.user ≠ user } =
      if x.attribution.map Attribution.user = some user then x.clear else x := by
  obtain ⟨t, a⟩ := x
  cases a with
  | none => simp
  | some a => by_cases hu : a.user = user <;> simp [Holding.clear, hu]

namespace InOrder

variable {g : Gallery} (h : g.InOrder)
include h

/-- A slot is attributed to a participant if its track is shown among the participant's streams. -/
theorem shown_iff {u : UserId} {k : Slot} {x : Holding} (hx : g.slots.get? k = some x) :
    (∃ r ∈ streamsOf g.users u, ∃ t ∈ r.stream.tracks, g.index.get? t.id = some k) ↔
      x.attribution.map Attribution.user = some u := by
  constructor
  · rintro ⟨r, hr, t, ht, hi⟩
    obtain ⟨k', hk'⟩ := ((h.grouped.groups u).mem_iff _ _).1 ⟨r, hr, rfl, ht⟩
    obtain rfl := Option.some.inj ((h.index_of_slot hk').symm.trans hi)
    obtain rfl := Option.some.inj (hx.symm.trans hk')
    rfl
  · intro hu
    obtain ⟨a, ha, rfl⟩ := Option.map_eq_some_iff.1 hu
    obtain ⟨r, hr, -, ht⟩ := ((h.grouped.groups _).mem_iff a.stream x.track).2 ⟨k, by rw [hx, ← ha]⟩
    exact ⟨r, hr, x.track, ht, h.index_of_slot hx⟩

/-- The order survives when the slots of a participant are cleared of their attributions together
with the participant's entry. -/
theorem eraseShown {user : UserId} {slots : Table Slot Holding}
    (hs : ∀ k, slots.get? k = (g.slots.get? k).map fun x =>
      { x with attribution := x.attribution.filter fun a => a.user ≠ user }) :
    ({ g with users := g.users.erase user, slots := slots }).InOrder := by
  refine ⟨fun i k => ?_, ?_, h.typed⟩
  · change g.index.get? i = some k ↔ ∃ x, slots.get? k = some x ∧ x.track.id = i
    rw [h.index_iff, hs]
    exact (exists_track_iff _ _ i).symm
  · have hattr : ∀ u s t, Attributed slots u s t ↔ Attributed g.slots u s t ∧ u ≠ user := by
      intro u s t
      simp only [Attributed, hs, Option.map_eq_some_iff, Holding.mk.injEq,
        Option.filter_eq_some_iff]
      constructor
      · rintro ⟨k, ⟨t', a⟩, hk, rfl, rfl, hne⟩
        exact ⟨⟨k, hk⟩, by simpa using hne⟩
      · rintro ⟨⟨k, hk⟩, hne⟩
        exact ⟨k, _, hk, rfl, rfl, by simpa using hne⟩
    refine h.grouped.erase (fun s t hp => ((hattr _ _ _).1 hp).2 rfl) fun u s t hne => ?_
    rw [hattr]
    exact ⟨fun hp => ⟨hp, hne⟩, And.left⟩

/-- The tracks of a participant whose streams go stay in their slots, attributed to no one. -/
theorem recast_unassociate (user : UserId) :
    Recast g (fun _ a => a.filter fun a => a.user ≠ user) (g.unassociate user).value := by
  unfold Gallery.unassociate
  split
  · rename_i hu
    -- no slot is attributed to a participant who is not shown
    have hnot : streamsOf g.users user = [] := by
      rw [streamsOf, hu]
      rfl
    refine .refl h
      fun k x hx => congrArg Holding.attribution ((filter_attribution x user).trans (if_neg ?_))
    rw [← h.shown_iff hx, hnot]
    rintro ⟨r, hr, -⟩
    cases hr
  · rename_i shown hu
    obtain ⟨slots, hv, hs⟩ := value_dropStreams { g with users := g.users.erase user } shown.streams
    have hslots : ∀ k, slots.get? k = (g.slots.get? k).map fun x =>
        { x with attribution := x.attribution.filter fun a => a.user ≠ user } := by
      intro k
      refine (hs k).trans ?_
      simp only [filter_attribution, ← streamsOf_of_get? hu]
      cases hk : g.slots.get? k with
      | none => simp
      | some x =>
        simp only [h.shown_iff hk, Option.map_some]
        split <;> rfl
    have hvalue :
        (forEach dropStream shown.streams { g with users := g.users.erase user } >>= fun g => do
        g.showCount
        return g).value = { g with users := g.users.erase user, slots := slots } := hv
    rw [hvalue]
    exact ⟨h.eraseShown hslots, rfl, rfl, rfl, hslots⟩

end InOrder

/-! ### A connection goes -/

theorem value_detachHeld (g : Gallery) (x : Holding) :
    ∃ users, (g.detachHeld x).value = { g with users := users } := by
  unfold detachHeld
  split
  · exact g.value_detach _ _
  · exact ⟨g.users, rfl⟩

/-- A slot that is cleared for good goes, and announcements and captured streams stay. -/
theorem value_dropSlot (g : Gallery) (slot : Slot) :
    ∃ users index, (g.dropSlot slot).value =
      { g with users := users, index := index, slots := g.slots.erase slot } := by
  unfold dropSlot
  split
  · rename_i hs
    refine ⟨g.users, g.index, ?_⟩
    rw [Table.erase_of_get?_eq_none hs]
    rfl
  · rename_i x hs
    obtain ⟨users, hv⟩ := value_detachHeld { g with slots := g.slots.erase slot } x
    exact ⟨users, g.index.erase x.track.id, by rw [value_bind, hv]; rfl⟩

/-- Several slots that are cleared for good go, and announcements and captured streams stay. -/
theorem value_dropSlots (g : Gallery) (l : List Slot) :
    ∃ users index slots,
      (forEach dropSlot l g).value = { g with users := users, index := index, slots := slots } ∧
        ∀ k, slots.get? k = if k ∈ l then none else g.slots.get? k := by
  induction l generalizing g with
  | nil => exact ⟨g.users, g.index, g.slots, rfl, by simp⟩
  | cons slot l ih =>
    obtain ⟨users, index, hv⟩ := g.value_dropSlot slot
    obtain ⟨users', index', slots, hv', hs⟩ := ih (g.dropSlot slot).value
    refine ⟨users', index', slots, ?_, fun k => ?_⟩
    · rw [forEach_cons, value_bind, hv', hv]
    · rw [hs, hv]
      by_cases hk : k = slot
      · simp [hk, Table.get?_erase]
      · simp [hk, Table.get?_erase]

theorem mem_slotsOf {g : Gallery} {peer : UserId} {k : Slot} :
    k ∈ g.slotsOf peer ↔ k.peer = peer ∧ ∃ x, g.slots.get? k = some x := by
  rw [slotsOf, List.mem_filter, Table.mem_keys_iff, decide_eq_true_eq]
  exact and_comm

section RemovePeer

variable (g : Gallery) (peer : UserId)

/-- The slots of a connection that goes are cleared, and those of others are as they were. -/
theorem value_removePeer :
    ∃ users index slots,
      (g.removePeer peer).value = { g with users := users, index := index, slots := slots } ∧
        ∀ k, slots.get? k = if k.peer = peer then none else g.slots.get? k := by
  obtain ⟨users, index, slots, hv, hs⟩ := g.value_dropSlots (g.slotsOf peer)
  refine ⟨users, index, slots, hv, fun k => (hs k).trans ?_⟩
  by_cases hp : k.peer = peer
  · rw [if_pos hp]
    cases hk : g.slots.get? k with
    | none => exact ite_self _
    | some x => exact if_pos (mem_slotsOf.2 ⟨hp, x, hk⟩)
  · rw [if_neg hp, if_neg fun hm => hp (mem_slotsOf.1 hm).1]

@[simp]
theorem announced_removePeer : (g.removePeer peer).value.announced = g.announced := by
  obtain ⟨users, index, slots, hv, -⟩ := g.value_removePeer peer
  rw [hv]

@[simp]
theorem locals_removePeer : (g.removePeer peer).value.locals = g.locals := by
  obtain ⟨users, index, slots, hv, -⟩ := g.value_removePeer peer
  rw [hv]

theorem get?_slots_removePeer (k : Slot) :
    (g.removePeer peer).value.slots.get? k = if k.peer = peer then none else g.slots.get? k := by
  obtain ⟨users, index, slots, hv, hs⟩ := g.value_removePeer peer
  rw [hv]
  exact hs k

end RemovePeer

theorem attributed_erase {slots : Table Slot Holding} {slot : Slot} {u : UserId} {s : StreamId}
    {t : Track} :
    Attributed (slots.erase slot) u s t ↔ ∃ k, k ≠ slot ∧ slots.get? k = some ⟨t, some ⟨u, s⟩⟩ := by
  simp [Attributed, Table.get?_erase]

namespace InOrder

variable {g : Gallery} (h : g.InOrder)
include h

/-- The streams group the attributed tracks of the other slots after the track of a slot left its
stream. -/
theorem grouped_detachHeld {slot : Slot} {x : Holding} (hx : g.slots.get? slot = some x) :
    Grouped (detachHeld { g with slots := g.slots.erase slot } x).value.users
      (Attributed (g.slots.erase slot)) := by
  unfold detachHeld
  split
  · rename_i a ha
    refine (h.grouped.detach (g := { g with slots := g.slots.erase slot }) a x.track.id).congr
      fun u s t => ?_
    rw [attributed_erase]
    constructor
    · rintro ⟨⟨k, hk⟩, hne⟩
      refine ⟨k, ?_, hk⟩
      rintro rfl
      obtain rfl := Option.some.inj (hx.symm.trans hk)
      obtain rfl := Option.some.inj ha
      exact hne ⟨rfl, rfl, rfl⟩
    · rintro ⟨k, hne, hk⟩
      exact ⟨⟨k, hk⟩, fun hc => hne (h.slot_unique hk hx hc.2.2)⟩
  · rename_i ha
    refine h.grouped.congr fun u s t => ?_
    rw [attributed_erase]
    refine ⟨fun ⟨k, hk⟩ => ⟨k, ?_, hk⟩, fun ⟨k, _, hk⟩ => ⟨k, hk⟩⟩
    rintro rfl
    obtain rfl := Option.some.inj (hx.symm.trans hk)
    cases ha

/-- The order survives when a slot is cleared for good. -/
theorem dropSlot (slot : Slot) : (g.dropSlot slot).value.InOrder := by
  unfold Gallery.dropSlot
  split
  · exact h
  · rename_i x hx
    have hgrouped := h.grouped_detachHeld hx
    obtain ⟨users, hv⟩ := value_detachHeld { g with slots := g.slots.erase slot } x
    rw [hv] at hgrouped
    rw [value_bind, hv]
    refine ⟨fun i k => ?_, hgrouped, h.typed⟩
    simp only [value_pure, Table.get?_erase, Std.LawfulEqCmp.compare_eq_iff_eq]
    by_cases hi : i = x.track.id
    · rw [if_pos hi]
      refine ⟨nofun, ?_⟩
      rintro ⟨y, hy, he⟩
      split at hy
      · cases hy
      · rename_i hne
        exact absurd (h.slot_unique hy hx (he.trans hi)) hne
    · rw [if_neg hi, h.index_iff]
      split
      · rename_i hk
        subst hk
        constructor
        · rintro ⟨y, hy, he⟩
          obtain rfl := Option.some.inj (hx.symm.trans hy)
          exact absurd he.symm hi
        · rintro ⟨_, hy, -⟩
          cases hy
      · rfl

/-- The order survives the end of a connection. -/
theorem removePeer (peer : UserId) : (g.removePeer peer).value.InOrder :=
  forEach_induction h fun _ hg slot _ => hg.dropSlot slot

omit h in
/-- After the end of the call there is nothing left to be out of order. -/
theorem reset (g : Gallery) : g.reset.value.InOrder := inOrder_empty g.urls

/-! ### Captured streams -/

/-- The order concerns the captured streams only by their types. -/
theorem withLocals {locals : Table StreamType LocalStream}
    (typed : ∀ type m, locals.get? type = some m → m.type = type) (urls : UrlSource) :
    ({ g with locals := locals, urls := urls }).InOrder :=
  ⟨h.index_iff, h.grouped, typed⟩

theorem removeLocal (recording : Bool) (type : StreamType) :
    (g.removeLocal recording type).value.1.InOrder := by
  unfold Gallery.removeLocal
  split
  · exact h
  · refine h.withLocals (fun type' m hm => ?_) g.urls
    rw [Table.get?_erase] at hm
    split at hm
    · cases hm
    · exact h.typed _ _ hm

theorem addLocal (recording : Bool) (type : StreamType) (stream : Stream) :
    (g.addLocal recording type stream).value.1.InOrder := by
  have hr := h.removeLocal recording type
  refine hr.withLocals (fun type' m hm => ?_) _
  rw [Table.get?_insert] at hm
  split at hm
  · rename_i he
    obtain rfl := Option.some.inj hm
    exact (Std.LawfulEqOrd.eq_of_compare he).symm
  · exact hr.typed _ _ hm

theorem setMirror (type : StreamType) (t : Track) : (g.setMirror type t).InOrder := by
  unfold Gallery.setMirror
  split
  · refine h.withLocals (fun type' m hm => ?_) g.urls
    rw [Table.get?_modify] at hm
    split at hm
    · obtain ⟨m', hm', rfl⟩ := Option.map_eq_some_iff.1 hm
      exact h.typed type' m' hm'
    · exact h.typed _ _ hm
  · exact h

end InOrder

end VideoCall.Gallery

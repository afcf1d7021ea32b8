import VideoCall.Proofs.Gallery.Order

/-!
# Arrivals

A track that arrives makes its slot an exception for a while: whatever sat there is taken out, the
slot that held the track before is cleared, and only then does the slot get the track. In between
the gallery is in order except at that slot. After an arrival the slot holds the track, and
everything else about the other slots is as before, except that the track is gone from the slot in
which it sat.

## Main definitions

* `Gallery.Ready` : a gallery is in order except at one slot, which waits for a track.
* `Gallery.Seats` : a slot holds a track as its arrival would leave it.

## Main results

* `Gallery.InOrder.addTrack` : the order survives an arrival.
* `Gallery.InOrder.get?_slots_addTrack`, `Gallery.InOrder.get?_index_addTrack` : where everything is
  after it.
* `Gallery.addTrack_of_seats` : a track that sits where it arrives leaves everything as it is.
-/

namespace VideoCall.Gallery

open Media Outcome

/-- A gallery is in order except at one slot: nothing in the slot is attributed, and only a track
with the given id is still indexed there. -/
structure Ready (g : Gallery) (slot : Slot) (id : TrackId) : Prop where
  index_iff : ∀ i k, k ≠ slot →
    (g.index.get? i = some k ↔ ∃ h, g.slots.get? k = some h ∧ h.track.id = i)
  index_slot : ∀ i, g.index.get? i = some slot → i = id
  vacant : ∀ h, g.slots.get? slot = some h → h.attribution = none
  grouped : Grouped g.users (Attributed g.slots)
  typed : ∀ type m, g.locals.get? type = some m → m.type = type

/-! ### Making room -/

section Frames

variable (g : Gallery) (slot : Slot) (t : Track) (id : TrackId) (h : Holding) (a : Attribution)

@[simp]
theorem index_leaveOther : (g.leaveOther slot id).value.index = g.index := by
  unfold leaveOther
  repeat' split
  all_goals simp

@[simp]
theorem announced_leaveOther : (g.leaveOther slot id).value.announced = g.announced := by
  unfold leaveOther
  repeat' split
  all_goals simp

@[simp]
theorem locals_leaveOther : (g.leaveOther slot id).value.locals = g.locals := by
  unfold leaveOther
  repeat' split
  all_goals simp

/-- The other slot in which the track sat is cleared. -/
theorem get?_slots_leaveOther (k : Slot) :
    (g.leaveOther slot id).value.slots.get? k =
      if g.index.get? id = some k ∧ k ≠ slot then none else g.slots.get? k := by
  unfold leaveOther
  split
  · rename_i hi
    simp [hi]
  · rename_i before hi
    split
    · rename_i hb
      rw [if_neg]
      · rfl
      · rintro ⟨he, hne⟩
        exact hne (Option.some.inj (he.symm.trans (hb ▸ hi)))
    · rename_i hb
      by_cases hk : k = before
      · subst hk
        simp [hi, hb, Table.get?_erase]
      · simp [hi, hk, Ne.symm hk, Table.get?_erase, get?_slots_removeTrack]

theorem value_yieldSlot :
    (g.yieldSlot h id).value =
      if h.track.id = id then (g.removeTrack h.track.id).value
      else { (g.removeTrack h.track.id).value with
        index := (g.removeTrack h.track.id).value.index.erase h.track.id } :=
  rfl

@[simp]
theorem slots_yieldSlot :
    (g.yieldSlot h id).value.slots = (g.removeTrack h.track.id).value.slots := by
  rw [value_yieldSlot]
  split <;> rfl

@[simp]
theorem users_yieldSlot :
    (g.yieldSlot h id).value.users = (g.removeTrack h.track.id).value.users := by
  rw [value_yieldSlot]
  split <;> rfl

@[simp]
theorem announced_yieldSlot : (g.yieldSlot h id).value.announced = g.announced := by
  rw [value_yieldSlot]
  split <;> simp

@[simp]
theorem locals_yieldSlot : (g.yieldSlot h id).value.locals = g.locals := by
  rw [value_yieldSlot]
  split <;> simp

theorem get?_index_yieldSlot (i : TrackId) :
    (g.yieldSlot h id).value.index.get? i =
      if i = h.track.id ∧ i ≠ id then none else g.index.get? i := by
  rw [value_yieldSlot]
  split
  · rename_i he
    rw [if_neg fun hc => hc.2 (hc.1.trans he), index_removeTrack]
  · rename_i he
    simp only [index_removeTrack, Table.get?_erase, Std.LawfulEqCmp.compare_eq_iff_eq]
    by_cases hi : i = h.track.id
    · simp [hi, he]
    · simp [hi]

theorem value_place :
    (g.place slot t a).value =
      { ((g.leaveOther slot t.id).value.attach a t).value with
        index := ((g.leaveOther slot t.id).value.attach a t).value.index.insert t.id slot
        slots :=
          ((g.leaveOther slot t.id).value.attach a t).value.slots.insert slot ⟨t, some a⟩ } :=
  rfl

@[simp]
theorem announced_place : (g.place slot t a).value.announced = g.announced := by
  simp [value_place]

@[simp]
theorem locals_place : (g.place slot t a).value.locals = g.locals := by
  simp [value_place]

theorem get?_index_place (i : TrackId) :
    (g.place slot t a).value.index.get? i = if i = t.id then some slot else g.index.get? i := by
  simp [value_place]

theorem get?_slots_place (k : Slot) :
    (g.place slot t a).value.slots.get? k =
      if k = slot then some ⟨t, some a⟩ else if g.index.get? t.id = some k then none
      else g.slots.get? k := by
  by_cases hk : k = slot
  · simp [value_place, hk]
  · simp [value_place, hk, get?_slots_leaveOther]

end Frames

namespace Ready

variable {g : Gallery} {slot : Slot} {t : Track} {id : TrackId}

theorem eq_slot (h : g.Ready slot id) {k : Slot} {x : Holding} (hx : g.slots.get? k = some x) :
    k = slot ∨ g.index.get? x.track.id = some k := by
  by_cases hk : k = slot
  · exact Or.inl hk
  · exact Or.inr ((h.index_iff _ _ hk).2 ⟨x, hx, rfl⟩)

theorem ne_slot (h : g.Ready slot id) {k : Slot} {t : Track} {a : Attribution}
    (hx : g.slots.get? k = some ⟨t, some a⟩) : k ≠ slot := by
  rintro rfl
  cases h.vacant _ hx

/-- The streams still group the attributed tracks after the other slot of a track was cleared. -/
theorem grouped_leaveOther (h : g.Ready slot id) :
    Grouped (g.leaveOther slot id).value.users (Attributed (g.leaveOther slot id).value.slots) := by
  unfold leaveOther
  split
  · exact h.grouped
  · rename_i before hi
    split
    · exact h.grouped
    · rename_i hb
      have hr :
          Grouped (g.removeTrack id).value.users (Attributed (g.removeTrack id).value.slots) := by
        refine h.grouped.removeTrack (fun k x hx hk => ?_) fun k t a hx hid => ?_
        · obtain rfl := Option.some.inj (hi.symm.trans hk)
          obtain ⟨x', hx', he⟩ := (h.index_iff _ _ hb).1 hi
          exact Option.some.inj (hx.symm.trans hx') ▸ he
        · exact hid ▸ (h.eq_slot hx).resolve_left (h.ne_slot hx)
      refine hr.congr fun u s t => ⟨?_, ?_⟩ <;> rintro ⟨k, hk⟩ <;> refine ⟨k, ?_⟩
      · -- an attributed track does not sit in the slot that was cleared
        have hne : k ≠ before := by
          rintro rfl
          rw [get?_slots_removeTrack, if_pos hi] at hk
          obtain ⟨x, -, hx⟩ := Option.map_eq_some_iff.1 hk
          cases hx
        simpa [Table.get?_erase, hne] using hk
      · simp only [value_bind, value_pure, Table.get?_erase] at hk
        split at hk
        · cases hk
        · exact hk

/-- A slot that waits for a track gets it, and the gallery is in order. -/
theorem place (h : g.Ready slot t.id) (a : Attribution) : (g.place slot t a).value.InOrder where
  index_iff i k := by
    rw [get?_index_place, get?_slots_place]
    by_cases hk : k = slot
    · subst hk
      rw [if_pos rfl]
      constructor
      · intro hi
        refine ⟨_, rfl, ?_⟩
        split at hi
        · rename_i he
          exact he.symm
        · exact (h.index_slot i hi).symm
      · rintro ⟨x, hx, rfl⟩
        obtain rfl := Option.some.inj hx
        rw [if_pos rfl]
    · rw [if_neg hk]
      by_cases hi : i = t.id
      · subst hi
        rw [if_pos rfl]
        refine ⟨fun e => absurd (Option.some.inj e).symm hk, ?_⟩
        split
        · rintro ⟨x, hx, -⟩
          cases hx
        · rename_i hne
          exact fun hx => absurd ((h.index_iff _ _ hk).2 hx) hne
      · rw [if_neg hi, h.index_iff i k hk]
        split
        · rename_i ht
          obtain ⟨x, hx, he⟩ := (h.index_iff _ _ hk).1 ht
          refine ⟨fun ⟨x', hx', he'⟩ => ?_, fun ⟨_, hx', _⟩ => by cases hx'⟩
          obtain rfl := Option.some.inj (hx.symm.trans hx')
          exact absurd (he'.symm.trans he) hi
        · rfl
  grouped := by
    -- no attributed track has the id of the one that comes: its slot was cleared
    have hnew : ∀ t', Attributed (g.leaveOther slot t.id).value.slots a.user a.stream t' →
        t'.id ≠ t.id := by
      rintro t' ⟨k, hk⟩ he
      rw [get?_slots_leaveOther] at hk
      split at hk
      · cases hk
      · rename_i hc
        have hs := h.ne_slot hk
        exact hc ⟨he ▸ (h.eq_slot hk).resolve_left hs, hs⟩
    refine (h.grouped_leaveOther.attach hnew).congr fun u s t' => ?_
    rw [value_place]
    simp only [Attributed, slots_attach, Table.get?_insert, Std.LawfulEqCmp.compare_eq_iff_eq]
    constructor
    · rintro (⟨k, hk⟩ | ⟨rfl, rfl, rfl⟩)
      · refine ⟨k, ?_⟩
        rw [get?_slots_leaveOther] at hk
        split at hk
        · cases hk
        · rename_i hc
          rw [if_neg (h.ne_slot hk), get?_slots_leaveOther, if_neg hc]
          exact hk
      · exact ⟨slot, if_pos rfl⟩
    · rintro ⟨k, hk⟩
      split at hk
      · cases hk
        exact Or.inr ⟨rfl, rfl, rfl⟩
      · exact Or.inl ⟨k, hk⟩
  typed := by
    rw [locals_place]
    exact h.typed

end Ready

/-! ### The arrival -/

namespace InOrder

variable {g : Gallery} {slot : Slot} {x : Holding} (h : g.InOrder)
include h

/-- An empty slot is ready for a track. -/
theorem ready (hs : g.slots.get? slot = none) (id : TrackId) : g.Ready slot id where
  index_iff i k _ := h.index_iff i k
  index_slot i hi := by
    obtain ⟨x, hx, -⟩ := (h.index_iff _ _).1 hi
    cases hs.symm.trans hx
  vacant x hx := by cases hs.symm.trans hx
  grouped := h.grouped
  typed := h.typed

/-- A slot is ready for a track once it has yielded the one it held. -/
theorem ready_yieldSlot (hx : g.slots.get? slot = some x) (id : TrackId) :
    (g.yieldSlot x id).value.Ready slot id := by
  have hr := h.removeTrack x.track.id
  have hi : g.index.get? x.track.id = some slot := h.index_of_slot hx
  refine ⟨fun i k hk => ?_, fun i hs => ?_, fun y hy => ?_, ?_, ?_⟩
  · rw [get?_index_yieldSlot, slots_yieldSlot, ← hr.index_iff, index_removeTrack]
    split
    · rename_i hc
      rw [hc.1, hi]
      exact ⟨nofun, fun e => absurd (Option.some.inj e).symm hk⟩
    · rfl
  · rw [get?_index_yieldSlot] at hs
    split at hs
    · cases hs
    · rename_i hc
      obtain ⟨y, hy, rfl⟩ := (h.index_iff _ _).1 hs
      obtain rfl := Option.some.inj (hx.symm.trans hy)
      exact not_not.1 fun hne => hc ⟨rfl, hne⟩
  · rw [slots_yieldSlot, get?_slots_removeTrack, if_pos hi, hx] at hy
    obtain rfl := Option.some.inj hy
    rfl
  · rw [users_yieldSlot, slots_yieldSlot]
    exact hr.grouped
  · rw [locals_yieldSlot]
    exact h.typed

/-- The order survives an arrival. -/
theorem addTrack (slot : Slot) (t : Track) (raw : StreamId) :
    (g.addTrack slot t raw).value.InOrder := by
  dsimp only [Gallery.addTrack]
  split
  · rename_i hs
    exact (h.ready hs t.id).place _
  · rename_i x hs
    split
    · exact h
    · exact (h.ready_yieldSlot hs t.id).place _

omit h in
@[simp]
theorem announced_addTrack (slot : Slot) (t : Track) (raw : StreamId) :
    (g.addTrack slot t raw).value.announced = g.announced := by
  dsimp only [Gallery.addTrack]
  repeat' split
  all_goals simp

omit h in
@[simp]
theorem locals_addTrack (slot : Slot) (t : Track) (raw : StreamId) :
    (g.addTrack slot t raw).value.locals = g.locals := by
  dsimp only [Gallery.addTrack]
  repeat' split
  all_goals simp

/-- After an arrival the track is indexed at its slot, and a track that sat there before is not. -/
theorem get?_index_addTrack (slot : Slot) (t : Track) (raw : StreamId) (i : TrackId) :
    (g.addTrack slot t raw).value.index.get? i =
      if i = t.id then some slot else if g.index.get? i = some slot then none
      else g.index.get? i := by
  dsimp only [Gallery.addTrack]
  split
  · rename_i hs
    have hne : g.index.get? i ≠ some slot := fun hi => by
      obtain ⟨y, hy, -⟩ := (h.index_iff _ _).1 hi
      cases hs.symm.trans hy
    rw [get?_index_place, if_neg hne]
  · rename_i x hs
    have hi : g.index.get? x.track.id = some slot := h.index_of_slot hs
    have hiff : g.index.get? i = some slot ↔ i = x.track.id := by
      refine ⟨fun he => ?_, fun he => he ▸ hi⟩
      obtain ⟨y, hy, rfl⟩ := (h.index_iff _ _).1 he
      rw [Option.some.inj (hs.symm.trans hy)]
    split
    · rename_i hc
      have he : x.track.id = t.id := by
        simp only [Bool.and_eq_true, decide_eq_true_eq] at hc
        exact hc.1
      by_cases hit : i = t.id
      · rw [if_pos hit, hit, ← he]
        exact hi
      · rw [if_neg hit, if_neg fun e => hit ((hiff.1 e).trans he)]
        rfl
    · rw [value_bind, get?_index_place, get?_index_yieldSlot]
      by_cases hit : i = t.id
      · rw [if_pos hit, if_pos hit]
      · simp only [hiff, ne_eq, hit, not_false_eq_true, and_true]

/-- After an arrival the slot holds the track, or another handle of it, under the attribution that
the announcements give it; the slot where the track sat before is clear, and the others are as they
were. -/
theorem get?_slots_addTrack (slot : Slot) (t : Track) (raw : StreamId) (k : Slot) :
    (g.addTrack slot t raw).value.slots.get? k =
      if k = slot then some
        ⟨((g.slots.get? slot).filter fun x =>
            x.track.id = t.id && x.attribution = some (g.announced.attribution slot raw)).elim t
          Holding.track, some (g.announced.attribution slot raw)⟩
      else if g.index.get? t.id = some k then none else g.slots.get? k := by
  dsimp only [Gallery.addTrack]
  split
  · rename_i hs
    rw [get?_slots_place, hs]
    rfl
  · rename_i x hs
    have hi : g.index.get? x.track.id = some slot := h.index_of_slot hs
    split
    · rename_i hc
      have hc' := hc
      simp only [Bool.and_eq_true, decide_eq_true_eq] at hc'
      rw [hs, Option.filter_some, if_pos hc]
      by_cases hk : k = slot
      · rw [if_pos hk, hk, value_pure, hs, Option.elim_some, ← hc'.2]
      · rw [if_neg hk, if_neg, value_pure]
        exact fun e => hk (Option.some.inj (e.symm.trans (hc'.1 ▸ hi)))
    · rename_i hc
      rw [value_bind, get?_slots_place, hs, Option.filter_some, if_neg hc, Option.elim_none]
      by_cases hk : k = slot
      · rw [if_pos hk, if_pos hk]
      · have hyield :
            (g.yieldSlot x t.id).value.index.get? t.id = some k ↔ g.index.get? t.id = some k := by
          rw [get?_index_yieldSlot, if_neg fun hc => hc.2 rfl]
        rw [if_neg hk, if_neg hk, slots_yieldSlot, get?_slots_removeTrack, hi,
          if_neg fun e => hk (Option.some.inj e).symm]
        simp only [hyield]

omit h in
/-- Whichever handle an arrival leaves in its slot, its id is that of the track. -/
theorem id_handle_addTrack (o : Option Holding) (t : Track) (a : Attribution) :
    ((o.filter fun x => x.track.id = t.id && x.attribution = some a).elim t Holding.track).id =
    t.id := by
  cases hx : o.filter fun x => x.track.id = t.id && x.attribution = some a with
  | none => rfl
  | some x =>
    have := (Option.filter_eq_some_iff.1 hx).2
    simp only [Bool.and_eq_true, decide_eq_true_eq] at this
    exact this.1

end InOrder

/-! ### A track that arrives where it sits -/

section Seats

variable {g : Gallery}

/-- A slot holds a track with a given id, attributed as an arrival in the slot would be now. -/
def Seats (g : Gallery) (slot : Slot) (t : Track) (raw : StreamId) : Prop :=
  ∃ x, g.slots.get? slot = some x ∧ x.track.id = t.id ∧
    x.attribution = some (g.announced.attribution slot raw)

theorem addTrack_of_seats {slot : Slot} {t : Track} {raw : StreamId} (h : g.Seats slot t raw) :
    g.addTrack slot t raw = pure g := by
  obtain ⟨x, hx, hid, ha⟩ := h
  dsimp only [addTrack]
  split
  · rename_i hnone
    cases hx.symm.trans hnone
  · rename_i y hy
    obtain rfl := Option.some.inj (hx.symm.trans hy)
    rw [if_pos]
    simp [hid, ha]

namespace InOrder

variable (h : g.InOrder)
include h

/-- After an arrival the slot holds the track, or keeps the handle that it held. -/
theorem exists_holding_addTrack (slot : Slot) (t : Track) (raw : StreamId) :
    ∃ x, (g.addTrack slot t raw).value.slots.get? slot = some x ∧ x.track.id = t.id ∧
      (x.track = t ∨ g.slots.get? slot = some x) ∧
      x.attribution = some (g.announced.attribution slot raw) := by
  have hslot := (h.get?_slots_addTrack slot t raw slot).trans (if_pos rfl)
  refine ⟨_, hslot, id_handle_addTrack _ _ _, ?_, rfl⟩
  cases hkept : (g.slots.get? slot).filter fun x =>
      x.track.id = t.id && x.attribution = some (g.announced.attribution slot raw) with
  | none => exact Or.inl rfl
  | some y =>
    obtain ⟨hy, hsame⟩ := Option.filter_eq_some_iff.1 hkept
    simp only [Bool.and_eq_true, decide_eq_true_eq] at hsame
    rw [Option.elim_some, ← hsame.2]
    exact Or.inr hy

/-- A track that arrived sits where the same arrival would put it. -/
theorem seats_addTrack (slot : Slot) (t : Track) (raw : StreamId) :
    (g.addTrack slot t raw).value.Seats slot t raw := by
  obtain ⟨x, hx, hid, -, ha⟩ := h.exists_holding_addTrack slot t raw
  exact ⟨x, hx, hid, by rw [announced_addTrack, ha]⟩

/-- An arrival changes the slots unless the slot holds the track already. -/
theorem seats_of_slots_addTrack {slot : Slot} {t : Track} {raw : StreamId}
    (hs : (g.addTrack slot t raw).value.slots = g.slots) : g.Seats slot t raw := by
  obtain ⟨x, hx, hid, -, ha⟩ := h.exists_holding_addTrack slot t raw
  exact ⟨x, hs ▸ hx, hid, ha⟩

end InOrder

end Seats

end VideoCall.Gallery

import VideoCall.Gallery.Announce
import VideoCall.Proofs.Gallery.Arrival

/-!
# Announcements decide attributions

A batch of announcements leaves every track in its slot and changes attributions alone: the sender's
described slots are attributed as the batch says, the sender's other slots to no one, and the slots
of other connections as before. So where a track is rendered after a batch depends on the batch and
not on what went before.

## Main results

* `Gallery.announce_induction` : what the phases of a batch keep, the batch keeps.
* `Announcements.get?_replace` : what is announced after a batch.
* `Gallery.InOrder.get?_slots_announce` : the attributions after a batch.
-/

namespace VideoCall

open Media Wire Outcome

/-- Where an announcement says that a track is rendered. -/
def Wire.Announcement.attribution (m : Announcement) : Attribution := ⟨m.user, m.stream⟩

/-! ### What is announced -/

namespace Announcements

variable (a : Announcements) (sender : UserId) (batch : List Announcement) (slot : Slot)

theorem attribution_of_get? {a : Announcements} {slot : Slot} {m : Announcement}
    (h : a.get? slot = some m) (raw : StreamId) : a.attribution slot raw = m.attribution := by
  rw [attribution, h]
  rfl

/-- A batch describes slots of its sender only. -/
theorem of_get?_ofBatch {sender : UserId} {batch : List Announcement} {slot : Slot}
    {m : Announcement} (h : (ofBatch sender batch).get? slot = some m) :
    slot.peer = sender ∧ m ∈ batch ∧ m.mid = slot.mid := by
  rw [ofBatch, Table.get?_ofList] at h
  obtain ⟨n, hn, he⟩ := List.mem_map.1 (List.mem_reverse.1 (Entries.mem_of_lookup h))
  obtain ⟨rfl, rfl⟩ := Prod.mk.inj he
  exact ⟨rfl, hn, rfl⟩

/-- A batch describes the slots of its sender that it has an announcement for. -/
theorem exists_get?_ofBatch (h : ∃ m ∈ batch, m.mid = slot.mid) (hs : slot.peer = sender) :
    ∃ m, (ofBatch sender batch).get? slot = some m := by
  obtain ⟨m, hm, he⟩ := h
  refine Option.ne_none_iff_exists'.1 fun hnone => ?_
  rw [ofBatch, Table.get?_ofList, Entries.lookup_eq_none_iff] at hnone
  refine hnone m (List.mem_reverse.2 (List.mem_map.2 ⟨m, hm, ?_⟩))
  cases slot
  simp_all

theorem get?_ofBatch_of_peer_ne {sender : UserId} {slot : Slot} (h : slot.peer ≠ sender) :
    (ofBatch sender batch).get? slot = none :=
  Option.eq_none_iff_forall_ne_some.2 fun _ hm => h (of_get?_ofBatch hm).1

/-- What is announced for the sender's slots is the batch, and for other slots what it was. -/
theorem get?_replace :
    (a.replace sender (ofBatch sender batch)).get? slot =
      if slot.peer = sender then (ofBatch sender batch).get? slot else a.get? slot := by
  rw [replace, Table.get?_insertAll_entries, Table.get?_filter]
  by_cases h : slot.peer = sender
  · rw [if_pos h]
    cases a.get? slot <;> simp [h]
  · rw [if_neg h, get?_ofBatch_of_peer_ne batch h]
    cases a.get? slot <;> simp [h]

end Announcements

namespace Gallery

/-! ### Arriving again -/

namespace InOrder

variable {g : Gallery} (h : g.InOrder)
include h

/-- A track that arrives again in its own slot is attributed as the announcements say. -/
theorem recast_addTrack {slot : Slot} {x : Holding} (hx : g.slots.get? slot = some x)
    (raw : StreamId) :
    Recast g (fun k a => if k = slot then some (g.announced.attribution slot raw) else a)
      (g.addTrack slot x.track raw).value where
  inOrder := h.addTrack slot x.track raw
  index := by
    refine Table.ext_get? fun i => ?_
    rw [h.get?_index_addTrack]
    split
    · rename_i hi
      exact hi ▸ (h.index_of_slot hx).symm
    · rename_i hi
      split
      · rename_i hs
        obtain ⟨y, hy, rfl⟩ := (h.index_iff _ _).1 hs
        exact absurd (Option.some.inj (hy.symm.trans hx) ▸ rfl) hi
      · rfl
  announced := announced_addTrack slot x.track raw
  locals := locals_addTrack slot x.track raw
  slots k := by
    rw [h.get?_slots_addTrack]
    by_cases hk : k = slot
    · subst hk
      rw [if_pos rfl, hx, Option.filter_some]
      split <;> simp
    · have hne : ¬ g.index.get? x.track.id = some k := fun e =>
        hk (Option.some.inj (e.symm.trans (h.index_of_slot hx)))
      simp [hk, hne]

end InOrder

/-! ### The three phases -/

section Phases

variable {g : Gallery}

/-- Withdrawn tracks are attributed to no one. -/
theorem InOrder.recast_withdraw (h : g.InOrder) (ids : List TrackId) :
    Recast g (fun k a => if ∃ id ∈ ids, g.index.get? id = some k then none else a)
      (forEach withdraw ids g).value := by
  induction ids generalizing g with
  | nil => exact .refl h (by simp)
  | cons id ids ih =>
    have h₁ := h.recast_removeTrack id
    refine (h₁.trans (ih h₁.inOrder)).congr fun k x _ => ?_
    rw [h₁.index]
    by_cases hid : g.index.get? id = some k
    · simp [hid]
    · simp [hid]

/-- A track in an announced slot is attributed as announced. -/
theorem InOrder.recast_follow (h : g.InOrder) {slot : Slot} {m : Announcement}
    (hm : g.announced.get? slot = some m) :
    Recast g (fun k a => if k = slot then some m.attribution else a)
      (g.follow (slot, m)).value := by
  have hattr := Announcements.attribution_of_get? hm m.stream
  dsimp only [follow]
  split
  · rename_i hs
    refine .refl h fun k x hx => if_neg ?_
    rintro rfl
    cases hs.symm.trans hx
  · rename_i x hs
    split
    · exact hattr ▸ h.recast_addTrack hs m.stream
    · rename_i a ha
      split
      · rename_i he
        refine .refl h fun k y hy => ?_
        split
        · rename_i hk
          subst hk
          obtain rfl := Option.some.inj (hs.symm.trans hy)
          rw [ha, he]
          rfl
        · rfl
      · -- the track is taken out, and arrives in its slot again
        have h₁ := h.recast_removeTrack x.track.id
        have hx : (g.removeTrack x.track.id).value.slots.get? slot = some x.clear := by
          rw [get?_slots_removeTrack, if_pos (h.index_of_slot hs), hs]
          rfl
        have h₂ := h₁.inOrder.recast_addTrack hx m.stream
        rw [h₁.announced, hattr] at h₂
        refine (h₁.trans h₂).congr fun k y hy => ?_
        by_cases hk : k = slot
        · rw [if_pos hk, if_pos hk]
        · rw [if_neg hk, if_neg hk, if_neg]
          exact fun e => hk (Option.some.inj (e.symm.trans (h.index_of_slot hs)))

/-- The tracks in announced slots are attributed as announced. -/
theorem InOrder.recast_followAll (h : g.InOrder) (news : List (Slot × Announcement))
    (hm : ∀ e ∈ news, g.announced.get? e.1 = some e.2) :
    Recast g (fun k a => ((Entries.lookup k news.reverse).map Announcement.attribution).or a)
      (forEach follow news g).value := by
  induction news generalizing g with
  | nil => exact .refl h (by simp [Entries.lookup])
  | cons e news ih =>
    obtain ⟨slot, m⟩ := e
    have h₁ := h.recast_follow (hm (slot, m) List.mem_cons_self)
    have h₂ := ih h₁.inOrder fun e he => h₁.announced ▸ hm e (List.mem_cons_of_mem _ he)
    refine (h₁.trans h₂).congr fun k x _ => ?_
    rw [List.reverse_cons, Entries.lookup_append]
    cases Entries.lookup k news.reverse with
    | some m' => rfl
    | none => by_cases hk : k = slot <;> simp [Entries.lookup, hk]

end Phases

/-! ### A batch -/

theorem mem_undescribed {g : Gallery} {sender : UserId} {news : Announcements} {id : TrackId} :
    id ∈ g.undescribed sender news ↔ ∃ k x, g.slots.get? k = some x ∧ k.peer = sender ∧
      x.attribution.isSome ∧ news.get? k = none ∧ x.track.id = id := by
  simp only [undescribed, List.mem_map, List.mem_filter, Prod.exists, Table.mem_entries_iff,
    Bool.and_eq_true, decide_eq_true_eq, Bool.not_eq_true', Table.contains,
    Option.isSome_eq_false_iff, Option.isNone_iff_eq_none, and_assoc]

/-- A batch keeps what is kept when a track that is not described is withdrawn, when announcements
are replaced, and when a track moves to where the batch puts it. -/
theorem announce_induction {p : Gallery → Prop} {g : Gallery} {sender : UserId}
    {batch : List Announcement} (hp : p g)
    (hwithdraw : ∀ g', p g' → ∀ id ∈ g.undescribed sender (.ofBatch sender batch),
      p (g'.removeTrack id).value)
    (hreplace : ∀ g' a, p g' → p { g' with announced := a })
    (hfollow : ∀ g', p g' → ∀ e ∈ (Announcements.ofBatch sender batch).entries,
      p (g'.follow e).value) : p (g.announce sender batch).value := by
  have hleft : p (forEach withdraw (g.undescribed sender (.ofBatch sender batch)) g).value :=
    forEach_induction hp hwithdraw
  exact forEach_induction (hreplace _ _ hleft) hfollow

namespace InOrder

variable {g : Gallery} (h : g.InOrder) (sender : UserId) (batch : List Announcement)
include h

/-- After a batch the sender's slots are attributed as the batch says, and those of others as
before. -/
theorem recast_announce :
    Recast { g with announced := g.announced.replace sender (.ofBatch sender batch) }
      (fun k a => if k.peer = sender then
        ((Announcements.ofBatch sender batch).get? k).map Announcement.attribution else a)
      (g.announce sender batch).value := by
  have h₁ := h.recast_withdraw (g.undescribed sender (.ofBatch sender batch))
  generalize hg₁ : (forEach withdraw (g.undescribed sender (.ofBatch sender batch)) g).value =
    g₁ at h₁
  have hnews : ∀ e ∈ (Announcements.ofBatch sender batch).entries,
      (g.announced.replace sender (.ofBatch sender batch)).get? e.1 = some e.2 := fun e he => by
    have hget := Table.mem_entries_iff.1 he
    rw [Announcements.get?_replace, if_pos (Announcements.of_get?_ofBatch hget).1]
    exact hget
  have hswap := h₁.inOrder.withAnnounced (g.announced.replace sender (.ofBatch sender batch))
  have h₂ := hswap.recast_followAll _ hnews
  have hvalue : (g.announce sender batch).value = (forEach follow
      (Announcements.ofBatch sender batch).entries
      { g₁ with announced := g.announced.replace sender (.ofBatch sender batch) }).value := by
    rw [← hg₁, ← h₁.announced, ← hg₁]
    rfl
  rw [hvalue]
  refine ⟨h₂.inOrder, h₂.index.trans h₁.index, h₂.announced, h₂.locals.trans h₁.locals, fun k => ?_⟩
  rw [h₂.slots, h₁.slots, Option.map_map]
  cases hx : g.slots.get? k with
  | none => rfl
  | some x =>
    have hout : (∃ id ∈ g.undescribed sender (.ofBatch sender batch), g.index.get? id = some k) ↔
        k.peer = sender ∧ x.attribution.isSome ∧
          (Announcements.ofBatch sender batch).get? k = none := by
      constructor
      · rintro ⟨id, hid, hi⟩
        obtain ⟨k', x', hx', hp, ha, hn, rfl⟩ := mem_undescribed.1 hid
        obtain rfl := Option.some.inj ((h.index_of_slot hx').symm.trans hi)
        obtain rfl := Option.some.inj (hx'.symm.trans hx)
        exact ⟨hp, ha, hn⟩
      · rintro ⟨hp, ha, hn⟩
        exact ⟨_, mem_undescribed.2 ⟨k, x, hx, hp, ha, hn, rfl⟩, h.index_of_slot hx⟩
    simp only [Option.map_some, Function.comp_apply, hout]
    rw [Entries.lookup_reverse (Announcements.ofBatch sender batch).increasing]
    change some _ = some _
    congr 2
    change (((Announcements.ofBatch sender batch).get? k).map _).or _ = _
    by_cases hp : k.peer = sender
    · cases hn : (Announcements.ofBatch sender batch).get? k with
      | some m => simp [hp]
      | none =>
        cases ha : x.attribution with
        | none => simp [hp]
        | some a => simp [hp]
    · simp [hp, Announcements.get?_ofBatch_of_peer_ne batch hp]

/-- The order survives a batch. -/
theorem announce : (g.announce sender batch).value.InOrder :=
  (h.recast_announce sender batch).inOrder

theorem get?_slots_announce (k : Slot) :
    (g.announce sender batch).value.slots.get? k =
      (g.slots.get? k).map fun x => { x with attribution := if k.peer = sender then
        ((Announcements.ofBatch sender batch).get? k).map Announcement.attribution
        else x.attribution } :=
  (h.recast_announce sender batch).slots k

end InOrder

/-- The order survives when a track moves to where it is announced. -/
theorem InOrder.follow {g : Gallery} (h : g.InOrder) (news : Slot × Announcement) :
    (g.follow news).value.InOrder := by
  dsimp only [Gallery.follow]
  repeat' split
  · exact h
  · exact h.addTrack _ _ _
  · exact h
  · exact (h.removeTrack _).addTrack _ _ _

end Gallery

end VideoCall

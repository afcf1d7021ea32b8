import VideoCall.Proofs.Gallery.Consistency

/-!
# Where a track sits after it arrives

A track that arrives may find another track in its slot, and may itself sit in another slot, and
both tracks may be in one stream. Whatever the case, afterwards it sits in its slot and nowhere
else, in the stream that it is attributed to and in no other. The track that sat in the slot is
gone, and so is the slot that the track left. Nothing else is different, and the same arrival again
is of no effect at all.

## Main definitions

* `Gallery.Seated` : all that comes of an arrival.

## Main results

* `Gallery.InOrder.shows_id_iff` : a track that sits in a slot is in the one stream that the slot is
  attributed to.
* `Gallery.seated_run` : this comes of an arrival in every history.
-/

namespace VideoCall

open Media Wire Outcome

theorem Announcements.attribution_eq (a : Announcements) (slot : Slot) (raw : StreamId) :
    a.attribution slot raw = (a.get? slot).elim ⟨slot.peer, raw⟩ Announcement.attribution := by
  unfold attribution
  cases a.get? slot <;> rfl

namespace Gallery

/-- All that comes of the arrival of a track in a slot, under an attribution. -/
structure Seated (g : Gallery) (slot : Slot) (t : Track) (a : Attribution) (g' : Gallery) :
    Prop where
  /-- The slot holds the track, or keeps the handle with its id that it held, under the
  attribution. -/
  sits : ∃ x, g'.slots.get? slot = some x ∧ x.track.id = t.id ∧
    (x.track = t ∨ g.slots.get? slot = some x) ∧ x.attribution = some a
  index : g'.index.get? t.id = some slot
  /-- The track is in the stream that it is attributed to, and in no other. -/
  shows_iff : ∀ u s, (∃ t', g'.Shows u s t' ∧ t'.id = t.id) ↔ a = ⟨u, s⟩
  /-- The other slot in which the track sat is gone. -/
  left : ∀ k x, g.slots.get? k = some x → x.track.id = t.id → k ≠ slot → g'.slots.get? k = none
  /-- The other track that sat in the slot is in no slot, not indexed, and in no stream. -/
  superseded : ∀ x, g.slots.get? slot = some x → x.track.id ≠ t.id →
    (∀ k y, g'.slots.get? k = some y → y.track.id ≠ x.track.id) ∧
      g'.index.get? x.track.id = none ∧ ∀ u s t', g'.Shows u s t' → t'.id ≠ x.track.id
  /-- All other slots are as they were, with their tracks and attributions. -/
  others : ∀ k, k ≠ slot → (∀ x, g.slots.get? k = some x → x.track.id ≠ t.id) →
    g'.slots.get? k = g.slots.get? k
  announced : g'.announced = g.announced

namespace InOrder

variable {g : Gallery} (h : g.InOrder)
include h

/-- A track that sits in a slot is in the stream that the slot is attributed to, and in no other. -/
theorem shows_id_iff {k : Slot} {x : Holding} (hx : g.slots.get? k = some x) (u : UserId)
    (s : StreamId) :
    (∃ t, g.Shows u s t ∧ t.id = x.track.id) ↔ x.attribution = some ⟨u, s⟩ := by
  constructor
  · rintro ⟨t, ht, hid⟩
    obtain ⟨k', hk'⟩ := h.shows_iff.1 ht
    obtain rfl := h.slot_unique hx hk' hid.symm
    obtain rfl := Option.some.inj (hx.symm.trans hk')
    rfl
  · intro ha
    refine ⟨x.track, h.shows_iff.2 ⟨k, ?_⟩, rfl⟩
    rw [hx, ← ha]

/-- A track whose id is not indexed is in no slot. -/
theorem id_ne_of_index {id : TrackId} (hid : g.index.get? id = none) {k : Slot} {x : Holding}
    (hx : g.slots.get? k = some x) : x.track.id ≠ id := by
  rintro rfl
  exact Option.some_ne_none k ((h.index_of_slot hx).symm.trans hid)

/-- All this comes of an arrival, under the attribution that the announcements give it. -/
theorem seated (slot : Slot) (t : Track) (raw : StreamId) :
    g.Seated slot t (g.announced.attribution slot raw) (g.addTrack slot t raw).value := by
  have h' := h.addTrack slot t raw
  have hslots := h.get?_slots_addTrack slot t raw
  have hindex := h.get?_index_addTrack slot t raw
  have hsits := h.exists_holding_addTrack slot t raw
  refine ⟨hsits, (hindex t.id).trans (if_pos rfl), fun u s => ?shows, fun k y hy hid hk => ?left,
    fun y hy hne => ?superseded, fun k hk hother => ?others, announced_addTrack slot t raw⟩
  case shows =>
    obtain ⟨x, hx, hid, -, ha⟩ := hsits
    rw [← hid, h'.shows_id_iff hx, ha, Option.some_inj]
  case left =>
    rw [hslots, if_neg hk, if_pos (hid ▸ h.index_of_slot hy)]
  case superseded =>
    have hgone : (g.addTrack slot t raw).value.index.get? y.track.id = none := by
      rw [hindex, if_neg hne, if_pos (h.index_of_slot hy)]
    refine ⟨fun k z hz => h'.id_ne_of_index hgone hz, hgone, fun u s t' ht => ?_⟩
    obtain ⟨k, hk⟩ := h'.shows_iff.1 ht
    exact h'.id_ne_of_index hgone hk
  case others =>
    have hnot : g.index.get? t.id ≠ some k := fun hi => by
      obtain ⟨y, hy, hid⟩ := (h.index_iff _ _).1 hi
      exact hother y hy hid
    rw [hslots, if_neg hk, if_neg hnot]

end InOrder

/-- In every history a track that arrives takes its slot, as announced or else in the name of the
connection's own participant, and leaves every other place; the track that sat in the slot is gone,
and all else about slots and announcements stays. The same arrival again changes nothing and has no
effects. -/
theorem seated_run (urls : UrlSource) (changes : List Change) (slot : Slot) (t : Track)
    (raw : StreamId) :
    let g := ((empty urls).run changes).value
    let g' := (g.addTrack slot t raw).value
    g.Seated slot t ((g.announced.get? slot).elim ⟨slot.peer, raw⟩ Announcement.attribution) g' ∧
      g'.addTrack slot t raw = pure g' := by
  intro g g'
  have h : g.InOrder := (show Reachable g from ⟨urls, changes, rfl⟩).inOrder
  rw [← Announcements.attribution_eq]
  exact ⟨h.seated slot t raw, addTrack_of_seats (h.seats_addTrack slot t raw)⟩

end Gallery

end VideoCall

import VideoCall.Proofs.Gallery.Announcing
import VideoCall.Proofs.Gallery.Departure

/-!
# Histories keep the order

Every change keeps a gallery in order, so a gallery that some list of changes leads to is in order:
whatever ids the tracks carry, however often slots and handles come again, and whatever the renderer
refuses. For a reader of the gallery this says that the slots, their index and the streams on show
are three views of one thing.

## Main definitions

* `Gallery.Shows` : a track is in a stream of a participant.
* `Gallery.Consistent` : index, slots and streams are views of each other, and no stream or entry is
  void.

## Main results

* `Gallery.Reachable.inOrder` : the galleries that changes lead to are in order.
* `Gallery.consistent_run` : they are consistent.
-/

namespace VideoCall.Gallery

open Media

/-- The order survives every change. -/
theorem InOrder.apply {g : Gallery} (h : g.InOrder) (change : Change) :
    (g.apply change).value.InOrder := by
  cases change with
  | addTrack slot t raw => exact h.addTrack slot t raw
  | removeTrack id => exact h.removeTrack id
  | unassociate user => exact (h.recast_unassociate user).inOrder
  | removePeer peer => exact h.removePeer peer
  | announce sender batch => exact h.announce sender batch
  | reset => exact .reset g
  | addLocal recording type stream => exact h.addLocal recording type stream
  | removeLocal recording type => exact h.removeLocal recording type
  | setMirror type t => exact h.setMirror type t

/-- A slot that is empty is taken only by a track that arrives there. -/
theorem InOrder.get?_slots_apply {g : Gallery} (h : g.InOrder) {change : Change} {k : Slot}
    (hk : g.slots.get? k = none) (harrive : ∀ t raw, change ≠ .addTrack k t raw) :
    (g.apply change).value.slots.get? k = none := by
  cases change with
  | addTrack slot t raw =>
    have hne : k ≠ slot := fun he => harrive t raw (he ▸ rfl)
    exact (h.get?_slots_addTrack slot t raw k).trans (by rw [if_neg hne, hk, ite_self])
  | removeTrack id => exact (g.get?_slots_removeTrack id k).trans (by rw [hk]; exact ite_self _)
  | unassociate user => exact ((h.recast_unassociate user).slots k).trans (by rw [hk]; rfl)
  | removePeer peer => exact (g.get?_slots_removePeer peer k).trans (by rw [hk, ite_self])
  | announce sender batch => exact (h.get?_slots_announce sender batch k).trans (by rw [hk]; rfl)
  | reset => rfl
  | addLocal recording type stream => exact slots_removeLocal recording g type ▸ hk
  | removeLocal recording type => exact slots_removeLocal recording g type ▸ hk
  | setMirror type t => exact slots_setMirror g type t ▸ hk

/-- The galleries that changes lead to are in order. -/
theorem Reachable.inOrder {g : Gallery} (h : g.Reachable) : g.InOrder :=
  h.induction inOrder_empty fun _ change hg => hg.apply change

/-- A handle on a track is in a stream of a participant. -/
def Shows (g : Gallery) (u : UserId) (s : StreamId) (t : Track) : Prop :=
  ∃ x, g.users.get? u = some x ∧ ∃ r ∈ x.streams, r.id = s ∧ t ∈ r.stream.tracks

/-- The index of tracks, the slots and the streams of participants are views of each other. -/
structure Consistent (g : Gallery) : Prop where
  /-- A track is indexed at a slot if the slot holds a track with its id. -/
  index_iff : ∀ id k, g.index.get? id = some k ↔ ∃ h, g.slots.get? k = some h ∧ h.track.id = id
  /-- A stream of a participant shows the very handles in the slots that are attributed to it. -/
  shows_iff : ∀ u s t, g.Shows u s t ↔ ∃ k, g.slots.get? k = some ⟨t, some ⟨u, s⟩⟩
  /-- A track is in one stream. -/
  shows_unique : ∀ u s t u' s' t', g.Shows u s t → g.Shows u' s' t' → t.id = t'.id →
    u = u' ∧ s = s' ∧ t = t'
  /-- A participant who is shown has a stream, and the entry is the participant's own. -/
  entry : ∀ u x, g.users.get? u = some x → x.user = u ∧ x.streams ≠ []
  /-- The streams of a participant have different ids. -/
  nodup_ids : ∀ u x, g.users.get? u = some x → (x.streams.map (·.id)).Nodup
  /-- A stream that is shown goes by its id, and holds a track, and none twice. -/
  stream : ∀ u x, g.users.get? u = some x → ∀ r ∈ x.streams,
    r.stream.id = r.id ∧ r.stream.tracks ≠ [] ∧ r.stream.trackIds.Nodup
  /-- A captured stream stands at its own type. -/
  typed : ∀ type m, g.locals.get? type = some m → m.type = type

namespace InOrder

variable {g : Gallery} (h : g.InOrder)
include h

theorem shows_iff {u : UserId} {s : StreamId} {t : Track} :
    g.Shows u s t ↔ ∃ k, g.slots.get? k = some ⟨t, some ⟨u, s⟩⟩ := by
  refine Iff.trans ?_ ((h.grouped.groups u).mem_iff s t)
  unfold Shows streamsOf
  cases g.users.get? u <;> simp

/-- A track that a renderer is given sits in a slot, attributed to where it is shown. -/
theorem slot_of_snapshot {u : UserId} {rs : List RemoteStream} {r : RemoteStream} {t : Track}
    (hu : (u, rs) ∈ g.snapshot.users) (hr : r ∈ rs) (ht : t ∈ r.stream.tracks) :
    ∃ k, g.slots.get? k = some ⟨t, some ⟨u, r.id⟩⟩ := by
  obtain ⟨x, hx, he⟩ := List.mem_map.1 hu
  obtain ⟨⟨v, y⟩, hy, rfl⟩ := List.mem_map.1 hx
  obtain ⟨rfl, rfl⟩ := Prod.mk.inj he
  have hget := Table.mem_entries_iff.1 hy
  obtain rfl := h.grouped.entry _ _ hget |>.1
  exact h.shows_iff.1 ⟨y, hget, r, hr, rfl, ht⟩

/-- What is in order is consistent. -/
theorem consistent : g.Consistent where
  index_iff := h.index_iff
  shows_iff _ _ _ := h.shows_iff
  shows_unique u s t u' s' t' ht ht' he := by
    obtain ⟨k, hk⟩ := h.shows_iff.1 ht
    obtain ⟨k', hk'⟩ := h.shows_iff.1 ht'
    obtain rfl := h.slot_unique hk hk' he
    cases hk.symm.trans hk'
    exact ⟨rfl, rfl, rfl⟩
  entry := h.grouped.entry
  nodup_ids _ _ hx := (h.grouped.groups_of_get? hx).nodup_ids
  stream _ _ hx r hr :=
    have hg := h.grouped.groups_of_get? hx
    ⟨hg.named r hr, hg.nonempty r hr, hg.nodup_tracks r hr⟩
  typed := h.typed

end InOrder

/-- Whatever happens to a gallery, and whatever the renderer mints or refuses, the index of tracks,
the slots and the streams on show remain views of each other. -/
theorem consistent_run (urls : UrlSource) (changes : List Change) :
    ((empty urls).run changes).value.Consistent :=
  (show Reachable _ from ⟨urls, changes, rfl⟩).inOrder.consistent

end VideoCall.Gallery

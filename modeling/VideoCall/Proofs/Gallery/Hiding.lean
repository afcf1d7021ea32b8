import VideoCall.Proofs.Gallery.Consistency

/-!
# How a hidden track is seen again

A track that is taken out of its stream keeps its slot. Of all that can happen to a gallery two
things alone bring such a track back: it arrives again, on whichever connection, or the peer in
whose slot it sits announces something for that slot. The gallery does not know why the track is
out, so an announcement brings back a track that was muted as well as one that was withdrawn.

## Main definitions

* `Gallery.Snapshot.renders` : a track is in a stream of a participant.
* `Gallery.Reveals` : the changes that bring a track back.

## Main results

* `Gallery.InOrder.renders_removeTrack` : a track that is taken out is not rendered.
* `Gallery.InOrder.renders_apply_iff` : a track that is not rendered is rendered after a change
  exactly if the change brings it back.
-/

namespace VideoCall.Gallery

open Media Wire

/-- Whether a track is in a stream of a participant. -/
def Snapshot.renders (s : Snapshot) (id : TrackId) : Bool :=
  s.users.any fun (_, rs) => rs.any fun r => r.stream.contains id

/-- A change brings a track back: it arrives, or the peer in whose slot it sits announces something
for the slot. -/
def Reveals (g : Gallery) (id : TrackId) : Change → Prop
  | .addTrack _ t _ => t.id = id
  | .announce sender batch => ∃ mid, g.index.get? id = some ⟨sender, mid⟩ ∧ ∃ m ∈ batch, m.mid = mid
  | _ => False

/-! ### What is rendered -/

/-- The tracks that are attributed in some slots were attributed in others before. -/
def Fades (slots slots' : Table Slot Holding) : Prop :=
  ∀ k t a, slots'.get? k = some ⟨t, some a⟩ → slots.get? k = some ⟨t, some a⟩

theorem Fades.of_eq {slots slots' : Table Slot Holding} (h : slots' = slots) :
    Fades slots slots' :=
  fun _ _ _ hk => h ▸ hk

/-- A recast that attributes no track anew fades. -/
theorem Recast.fades {g g' : Gallery} {f : Slot → Option Attribution → Option Attribution}
    (h : Recast g f g') (hf : ∀ k o a, f k o = some a → o = some a) :
    Fades g.slots g'.slots := by
  intro k t a hk
  obtain ⟨⟨t', o⟩, hx, he⟩ := Option.map_eq_some_iff.1 ((h.slots k).symm.trans hk)
  obtain ⟨rfl, ho⟩ := Holding.mk.inj he
  rw [hx, hf k o a ho]

namespace InOrder

variable {g : Gallery} (h : g.InOrder)
include h

/-- A track is rendered if it sits in a slot that is attributed to someone. -/
theorem renders_iff {id : TrackId} :
    g.snapshot.renders id ↔ ∃ k t a, g.slots.get? k = some ⟨t, some a⟩ ∧ t.id = id := by
  simp only [Snapshot.renders, List.any_eq_true, Stream.contains_iff, Prod.exists]
  constructor
  · rintro ⟨u, rs, hu, r, hr, t, ht, rfl⟩
    obtain ⟨k, hk⟩ := h.slot_of_snapshot hu hr ht
    exact ⟨k, t, ⟨u, r.id⟩, hk, rfl⟩
  · rintro ⟨k, t, ⟨u, s⟩, hk, rfl⟩
    obtain ⟨x, hx, r, hr, -, ht⟩ := h.shows_iff.2 ⟨k, hk⟩
    have hentry : (u, x.streams) ∈ g.snapshot.users := by
      obtain rfl := (h.grouped.entry u x hx).1
      exact List.mem_map.2 ⟨x, List.mem_map.2 ⟨(x.user, x), Table.mem_entries_iff.2 hx, rfl⟩, rfl⟩
    exact ⟨u, x.streams, hentry, r, hr, t, ht, rfl⟩

/-- Where slots fade, no track is seen again. -/
theorem not_renders_of_fades {g' : Gallery} (h' : g'.InOrder) (hf : Fades g.slots g'.slots)
    {id : TrackId} (hid : ¬ g.snapshot.renders id) : ¬ g'.snapshot.renders id := by
  rw [h.renders_iff] at hid
  rw [h'.renders_iff]
  rintro ⟨k, t, a, hk, he⟩
  exact hid ⟨k, t, a, hf k t a hk, he⟩

/-- A track that is taken out is not rendered. -/
theorem renders_removeTrack (id : TrackId) : ¬ (g.removeTrack id).value.snapshot.renders id := by
  rw [(h.removeTrack id).renders_iff]
  rintro ⟨k, t, a, hk, rfl⟩
  rw [get?_slots_removeTrack] at hk
  split at hk
  · obtain ⟨x, -, hx⟩ := Option.map_eq_some_iff.1 hk
    cases congrArg Holding.attribution hx
  · rename_i hi
    exact hi (h.index_of_slot hk)

/-! ### What brings a track back -/

variable {id : TrackId} (hid : ¬ g.snapshot.renders id)
include hid

theorem renders_addTrack_iff (slot : Slot) (t : Track) (raw : StreamId) :
    (g.addTrack slot t raw).value.snapshot.renders id ↔ t.id = id := by
  rw [(h.addTrack slot t raw).renders_iff]
  constructor
  · rintro ⟨k, t', a, hk, rfl⟩
    rw [h.get?_slots_addTrack] at hk
    split at hk
    · obtain ⟨rfl, -⟩ := Holding.mk.inj (Option.some.inj hk)
      exact (id_handle_addTrack _ _ _).symm
    · split at hk
      · cases hk
      · exact absurd (h.renders_iff.2 ⟨k, t', a, hk, rfl⟩) hid
  · intro ht
    have hslot := h.get?_slots_addTrack slot t raw slot
    rw [if_pos rfl] at hslot
    exact ⟨slot, _, _, hslot, (id_handle_addTrack _ _ _).trans ht⟩

theorem renders_announce_iff (sender : UserId) (batch : List Announcement) :
    (g.announce sender batch).value.snapshot.renders id ↔
      g.Reveals id (.announce sender batch) := by
  rw [(h.announce sender batch).renders_iff]
  constructor
  · rintro ⟨k, t, a, hk, rfl⟩
    rw [h.get?_slots_announce] at hk
    obtain ⟨⟨t', o⟩, hx, he⟩ := Option.map_eq_some_iff.1 hk
    obtain ⟨rfl, ho⟩ := Holding.mk.inj he
    split at ho
    · rename_i hpeer
      obtain ⟨m, hm, -⟩ := Option.map_eq_some_iff.1 ho
      obtain ⟨-, hmem, hmid⟩ := Announcements.of_get?_ofBatch hm
      exact ⟨k.mid, (h.index_of_slot hx).trans (congrArg some (by rw [← hpeer])), m, hmem, hmid⟩
    · exact absurd (h.renders_iff.2 ⟨k, t', a, ho ▸ hx, rfl⟩) hid
  · rintro ⟨mid, hi, hm⟩
    obtain ⟨x, hx, rfl⟩ := (h.index_iff _ _).1 hi
    obtain ⟨m, hm⟩ := Announcements.exists_get?_ofBatch sender batch ⟨sender, mid⟩ hm rfl
    have hslot := h.get?_slots_announce sender batch ⟨sender, mid⟩
    rw [hx, hm, Option.map_some, if_pos rfl] at hslot
    exact ⟨_, _, _, hslot, rfl⟩

/-- A track that is not rendered is rendered after a change exactly if the change brings it
back. -/
theorem renders_apply_iff (change : Change) :
    (g.apply change).value.snapshot.renders id ↔ g.Reveals id change := by
  have hfades (hf : Fades g.slots (g.apply change).value.slots) :
      (g.apply change).value.snapshot.renders id ↔ False :=
    iff_false_intro (h.not_renders_of_fades (h.apply change) hf hid)
  cases change with
  | addTrack slot t raw => exact h.renders_addTrack_iff hid slot t raw
  | announce sender batch => exact h.renders_announce_iff hid sender batch
  | removeTrack track =>
    refine hfades ((h.recast_removeTrack track).fades fun k o a ha => ?_)
    split at ha
    · cases ha
    · exact ha
  | unassociate user =>
    exact hfades ((h.recast_unassociate user).fades fun k o a ha =>
      (Option.filter_eq_some_iff.1 ha).1)
  | removePeer peer =>
    refine hfades fun k t a hk => ?_
    have hleft := (g.get?_slots_removePeer peer k).symm.trans hk
    split at hleft
    · cases hleft
    · exact hleft
  | reset => exact hfades fun k t a hk => by cases hk
  | addLocal recording type stream => exact hfades (.of_eq (slots_removeLocal recording g type))
  | removeLocal recording type => exact hfades (.of_eq (slots_removeLocal recording g type))
  | setMirror type t => exact hfades (.of_eq (slots_setMirror g type t))

end InOrder

end VideoCall.Gallery

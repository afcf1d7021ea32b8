import VideoCall.Proofs.Gallery.Ledger
import VideoCall.Proofs.Gallery.Seating

/-!
# What goes with a connection

A connection that goes takes its own slots and nothing else. Its tracks may be in streams of any
participant, and there may be tracks of other connections beside them. They leave these streams one
by one, and in between streams and entries of participants go. What is left in the end does not
depend on that: every stream keeps the tracks of other connections, and is on show as before if it
has one.

## Main definitions

* `Gallery.thin` : streams with some of their tracks, without those that have none of them.
* `Gallery.Closes` : all that comes of the end of a connection.

## Main results

* `Gallery.InOrder.streamsOf_removePeer` : the streams of a participant after the end of a
  connection.
* `Gallery.closes_run` : in every history a connection takes its own slots and nothing else.
-/

namespace VideoCall

open Media Outcome

/-- The stream with some of its tracks. -/
def RemoteStream.thinned (r : RemoteStream) (keep : TrackId → Bool) : RemoteStream :=
  { r with stream := { r.stream with tracks := r.stream.tracks.filter fun t => keep t.id } }

theorem RemoteStream.thinned_eq_self {r : RemoteStream} {keep : TrackId → Bool}
    (h : ∀ t ∈ r.stream.tracks, keep t.id = true) : r.thinned keep = r := by
  rw [thinned, List.filter_eq_self.2 h]

namespace Gallery

/-! ### Streams with fewer tracks -/

/-- The streams with some of their tracks. A stream without such a track goes. -/
def thin (keep : TrackId → Bool) (l : List RemoteStream) : List RemoteStream :=
  (l.map fun r => r.thinned keep).filter fun r => !r.stream.isEmpty

section Thin

variable {keep : TrackId → Bool} {l : List RemoteStream}

theorem mem_thin {r' : RemoteStream} :
    r' ∈ thin keep l ↔ ∃ r ∈ l, r.thinned keep = r' ∧ r'.stream.tracks ≠ [] := by
  rw [thin, List.mem_filter, List.mem_map, Stream.not_isEmpty_iff]
  exact ⟨fun ⟨⟨r, hr, he⟩, hn⟩ => ⟨r, hr, he, hn⟩, fun ⟨r, hr, he, hn⟩ => ⟨⟨r, hr, he⟩, hn⟩⟩

/-- Streams that keep all their tracks stay. -/
theorem thin_eq_self (hne : ∀ r ∈ l, r.stream.tracks ≠ [])
    (h : ∀ r ∈ l, ∀ t ∈ r.stream.tracks, keep t.id = true) : thin keep l = l := by
  have hmap : (l.map fun r => r.thinned keep) = l :=
    (List.map_congr_left fun r hr => RemoteStream.thinned_eq_self (h r hr)).trans (List.map_id' l)
  rw [thin, hmap, List.filter_eq_self]
  exact fun r hr => Stream.not_isEmpty_iff.2 (hne r hr)

theorem thin_ne_eq_self {id : TrackId} (hne : ∀ r ∈ l, r.stream.tracks ≠ [])
    (h : ∀ r ∈ l, ∀ t ∈ r.stream.tracks, t.id ≠ id) : thin (fun i => i ≠ id) l = l := by
  refine thin_eq_self hne fun r hr t ht => ?_
  rw [decide_eq_true_eq]
  exact h r hr t ht

/-- Tracks that go in two turns can go in one: a stream that went in the first turn had nothing
left for the second. -/
theorem thin_thin (keep keep' : TrackId → Bool) (l : List RemoteStream) :
    thin keep' (thin keep l) = thin (fun id => keep id && keep' id) l := by
  induction l with
  | nil => rfl
  | cons r l ih =>
    have htwice : (r.thinned keep).thinned keep' = r.thinned fun id => keep id && keep' id := by
      simp [RemoteStream.thinned, List.filter_filter, Bool.and_comm]
    by_cases he : (r.thinned keep).stream.isEmpty
    · have hgone : (r.thinned keep).stream.tracks = [] := Stream.isEmpty_iff.1 he
      have he' : (r.thinned fun id => keep id && keep' id).stream.isEmpty := by
        rw [← htwice, Stream.isEmpty_iff]
        exact (congrArg (List.filter _) hgone).trans List.filter_nil
      simpa [thin, he, he'] using ih
    · simp only [thin, List.map_cons, List.filter_cons, he, Bool.not_false, if_true, htwice] at ih ⊢
      rw [ih]

/-- A track that is in no other stream leaves its stream as it leaves all streams. -/
theorem removeFrom_eq_thin {s : StreamId} {id : TrackId}
    (h : ∀ r ∈ l, ∀ t ∈ r.stream.tracks, t.id = id → r.id = s) :
    removeFrom s id l = thin (fun i => i ≠ id) l := by
  refine congrArg (List.filter _) (List.map_congr_left fun r hr => ?_)
  split
  · rfl
  · rename_i hs
    refine (RemoteStream.thinned_eq_self fun t ht => ?_).symm
    rw [decide_eq_true_eq]
    exact fun he => hs (h r hr t ht he)

end Thin

theorem shows_of_mem {g : Gallery} {u : UserId} {r : RemoteStream} {t : Track}
    (hr : r ∈ streamsOf g.users u) (ht : t ∈ r.stream.tracks) : g.Shows u r.id t := by
  unfold streamsOf at hr
  cases hu : g.users.get? u with
  | none =>
    rw [hu] at hr
    cases hr
  | some x =>
    rw [hu] at hr
    exact ⟨x, hu, r, hr, rfl, ht⟩

/-! ### Slots that are cleared -/

/-- The streams of a participant after a track left its stream. -/
theorem Grouped.streamsOf_detach {g : Gallery} {P : UserId → StreamId → Track → Prop}
    (h : Grouped g.users P) (a : Attribution) (id : TrackId) (u : UserId) :
    streamsOf (g.detach a id).value.users u =
      if u = a.user then removeFrom a.stream id (streamsOf g.users u) else streamsOf g.users u := by
  unfold Gallery.detach
  split
  · rename_i hnone
    have hnot : streamsOf g.users a.user = [] := by
      rw [streamsOf, hnone]
      rfl
    split
    · rename_i hu
      rw [value_bind, value_pure, hu, hnot]
      rfl
    · rfl
  · rename_i x hx
    split
    · rename_i hfind
      split
      · rename_i hu
        have hg := h.groups a.user
        rw [value_bind, value_pure, hu, removeFrom_eq_self _ hg.nonempty]
        rw [streamsOf_of_get? hx]
        simpa using hfind
      · rfl
    · simp only [value_bind, value_pure, streamsOf_setShown]
      split
      · rename_i hu
        rw [hu, streamsOf_of_get? hx]
      · rfl

namespace InOrder

variable {g : Gallery} (h : g.InOrder)
include h

/-- The streams of a participant after a slot is cleared for good: the track of the slot is in none
of them. -/
theorem streamsOf_dropSlot (slot : Slot) (u : UserId) :
    streamsOf (g.dropSlot slot).value.users u =
      thin (fun id => g.index.get? id ≠ some slot) (streamsOf g.users u) := by
  have hg := h.grouped.groups u
  unfold Gallery.dropSlot
  split
  · rename_i hs
    refine (thin_eq_self hg.nonempty fun r hr t ht => ?_).symm
    rw [decide_eq_true_eq]
    intro hi
    obtain ⟨x, hx, -⟩ := (h.index_iff _ _).1 hi
    cases hs.symm.trans hx
  · rename_i x hs
    have hkeep : (fun id => decide (g.index.get? id ≠ some slot)) =
        fun id => decide (id ≠ x.track.id) := by
      refine funext fun id => decide_eq_decide.2 (not_congr ?_)
      rw [h.index_iff, hs]
      simp [eq_comm]
    -- the track is in the stream to which the slot is attributed, and in no other
    have hsole : ∀ r ∈ streamsOf g.users u, ∀ t ∈ r.stream.tracks, t.id = x.track.id →
        x.attribution = some ⟨u, r.id⟩ := fun r hr t ht hid =>
      (h.shows_id_iff hs u r.id).1 ⟨t, shows_of_mem hr ht, hid⟩
    rw [hkeep, value_bind, value_pure]
    unfold detachHeld
    split
    · rename_i a ha
      have hd := Grouped.streamsOf_detach (g := { g with slots := g.slots.erase slot }) h.grouped a
        x.track.id u
      refine hd.trans ?_
      split
      · refine removeFrom_eq_thin fun r hr t ht hid => ?_
        rw [Option.some.inj (ha.symm.trans (hsole r hr t ht hid))]
      · rename_i hu
        refine (thin_ne_eq_self hg.nonempty fun r hr t ht hid => hu ?_).symm
        rw [Option.some.inj (ha.symm.trans (hsole r hr t ht hid))]
    · rename_i ha
      refine (thin_ne_eq_self hg.nonempty fun r hr t ht hid => ?_).symm
      cases ha.symm.trans (hsole r hr t ht hid)

/-- A slot that is cleared for good leaves the index. -/
theorem get?_index_dropSlot (slot : Slot) (id : TrackId) :
    (g.dropSlot slot).value.index.get? id =
      if g.index.get? id = some slot then none else g.index.get? id := by
  obtain ⟨users, index, hv⟩ := g.value_dropSlot slot
  have hslots : (g.dropSlot slot).value.slots = g.slots.erase slot := congrArg Gallery.slots hv
  refine Option.ext fun k => ?_
  rw [(h.dropSlot slot).index_iff, hslots]
  simp only [Table.get?_erase, Std.LawfulEqCmp.compare_eq_iff_eq]
  by_cases hk : k = slot
  · subst hk
    simp
  · rw [if_neg hk, ← h.index_iff]
    split
    · rename_i hi
      simp [hi, Ne.symm hk]
    · rfl

/-- The streams of a participant after several slots are cleared for good. -/
theorem streamsOf_dropSlots (slots : List Slot) (u : UserId) :
    streamsOf (forEach Gallery.dropSlot slots g).value.users u =
      thin (fun id => ∀ k ∈ slots, g.index.get? id ≠ some k) (streamsOf g.users u) := by
  induction slots generalizing g with
  | nil => exact (thin_eq_self (h.grouped.groups u).nonempty (by simp)).symm
  | cons slot slots ih =>
    have hrest := ih (h.dropSlot slot)
    rw [forEach_cons, value_bind, hrest, h.streamsOf_dropSlot, thin_thin]
    refine congrArg (fun keep => thin keep _) (funext fun id => ?_)
    -- a track that went with the first slot is not indexed for the others
    rw [h.get?_index_dropSlot, ← Bool.decide_and]
    refine decide_eq_decide.2 ?_
    by_cases hi : g.index.get? id = some slot
    · simp [hi]
    · simp [hi]

end InOrder

/-! ### A connection that goes -/

/-- Whether a track is in no slot of a connection. -/
def elsewhere (g : Gallery) (peer : UserId) (id : TrackId) : Bool :=
  (g.index.get? id).all fun k => k.peer ≠ peer

/-- All that comes of the end of a connection. -/
structure Closes (g : Gallery) (peer : UserId) (g' : Gallery) : Prop where
  /-- The slots of the connection are gone, and all others hold what they held, under the same
  attributions. -/
  slots : ∀ k, g'.slots.get? k = if k.peer = peer then none else g.slots.get? k
  /-- The tracks of the connection are not indexed, and all others as before. -/
  index : ∀ id, g'.index.get? id = (g.index.get? id).filter fun k => k.peer ≠ peer
  /-- The tracks of the connection are in no stream. -/
  gone : ∀ k x, g.slots.get? k = some x → k.peer = peer →
    g'.index.get? x.track.id = none ∧ ∀ u s t, g'.Shows u s t → t.id ≠ x.track.id
  /-- The streams of a participant are those that were shown, in the same order, with their tracks
  of other connections, if they have any. -/
  streams : ∀ u, streamsOf g'.users u = thin (g.elsewhere peer) (streamsOf g.users u)
  /-- A stream with a track of another connection keeps its URL and all such tracks. -/
  kept : ∀ u, ∀ r ∈ streamsOf g.users u,
    (∃ t ∈ r.stream.tracks, ∃ k a, k.peer ≠ peer ∧ g.slots.get? k = some ⟨t, a⟩) →
    ∃ r' ∈ streamsOf g'.users u, r'.id = r.id ∧ r'.url = r.url ∧
      ∀ t, t ∈ r'.stream.tracks ↔
        t ∈ r.stream.tracks ∧ ∃ k a, k.peer ≠ peer ∧ g.slots.get? k = some ⟨t, a⟩
  announced : g'.announced = g.announced
  locals : g'.locals = g.locals

namespace InOrder

variable {g : Gallery} (h : g.InOrder) (peer : UserId)
include h

/-- The streams of a participant after the end of a connection. -/
theorem streamsOf_removePeer (u : UserId) :
    streamsOf (g.removePeer peer).value.users u =
      thin (g.elsewhere peer) (streamsOf g.users u) := by
  refine (h.streamsOf_dropSlots (g.slotsOf peer) u).trans ?_
  refine congrArg (fun keep => thin keep _) (funext fun id => ?_)
  rw [elsewhere, Bool.eq_iff_iff, decide_eq_true_eq]
  cases hi : g.index.get? id with
  | none => simp
  | some k =>
    have hmem : k ∈ g.slotsOf peer ↔ k.peer = peer := by
      obtain ⟨x, hx, -⟩ := (h.index_iff _ _).1 hi
      rw [mem_slotsOf, and_iff_left ⟨x, hx⟩]
    rw [Option.all_some, decide_eq_true_eq]
    refine ⟨fun hall hpeer => hall k (hmem.2 hpeer) rfl, fun hpeer k' hk' he => hpeer ?_⟩
    exact hmem.1 (Option.some.inj he ▸ hk')

/-- The index after the end of a connection. -/
theorem get?_index_removePeer (id : TrackId) :
    (g.removePeer peer).value.index.get? id =
      (g.index.get? id).filter fun k => k.peer ≠ peer := by
  refine Option.ext fun k => ?_
  rw [(h.removePeer peer).index_iff, Option.filter_eq_some_iff, h.index_iff,
    get?_slots_removePeer, decide_eq_true_eq]
  by_cases hk : k.peer = peer
  · simp [hk]
  · simp [hk]

/-- A track in a stream is elsewhere if it sits in a slot of another connection. -/
theorem elsewhere_iff {u : UserId} {r : RemoteStream} (hr : r ∈ streamsOf g.users u) {t : Track}
    (ht : t ∈ r.stream.tracks) :
    g.elsewhere peer t.id ↔ ∃ k a, k.peer ≠ peer ∧ g.slots.get? k = some ⟨t, a⟩ := by
  obtain ⟨k, hk⟩ := h.shows_iff.1 (shows_of_mem hr ht)
  rw [elsewhere, h.index_of_slot hk, Option.all_some, decide_eq_true_eq]
  constructor
  · exact fun hpeer => ⟨k, _, hpeer, hk⟩
  · rintro ⟨k', a, hpeer, hk'⟩
    exact h.slot_unique hk hk' rfl ▸ hpeer

/-- All this comes of the end of a connection. -/
theorem closes : g.Closes peer (g.removePeer peer).value where
  slots := g.get?_slots_removePeer peer
  index := h.get?_index_removePeer peer
  gone k x hx hpeer := by
    have hindex : (g.removePeer peer).value.index.get? x.track.id = none := by
      rw [h.get?_index_removePeer, h.index_of_slot hx]
      exact Option.filter_some_neg (by simp [hpeer])
    refine ⟨hindex, fun u s t ht => ?_⟩
    obtain ⟨k', hk'⟩ := (h.removePeer peer).shows_iff.1 ht
    exact (h.removePeer peer).id_ne_of_index hindex hk'
  streams := h.streamsOf_removePeer peer
  kept u r hr hother := by
    have htracks : ∀ t, t ∈ (r.thinned (g.elsewhere peer)).stream.tracks ↔
        t ∈ r.stream.tracks ∧ ∃ k a, k.peer ≠ peer ∧ g.slots.get? k = some ⟨t, a⟩ := by
      intro t
      rw [RemoteStream.thinned, List.mem_filter]
      exact and_congr_right fun ht => h.elsewhere_iff peer hr ht
    refine ⟨r.thinned (g.elsewhere peer), ?_, rfl, rfl, htracks⟩
    rw [h.streamsOf_removePeer]
    obtain ⟨t, ht, hk⟩ := hother
    exact mem_thin.2 ⟨r, hr, rfl, List.ne_nil_of_mem ((htracks t).2 ⟨ht, hk⟩)⟩
  announced := g.announced_removePeer peer
  locals := g.locals_removePeer peer

end InOrder

/-- Without a slot of the connection there is nothing to close. -/
theorem removePeer_of_slotsOf_eq_nil {g : Gallery} {peer : UserId} (h : g.slotsOf peer = []) :
    g.removePeer peer = (do
      g.showCount
      return g) := by
  unfold removePeer
  rw [h]
  rfl

/-- In every history a connection that goes takes its own slots and no other, and its tracks alone
leave the streams. When it goes once more, nothing changes. -/
theorem closes_run (urls : UrlSource) (changes : List Change) (peer : UserId) :
    let g := ((empty urls).run changes).value
    let g' := (g.removePeer peer).value
    g.Closes peer g' ∧ g'.removePeer peer = (do
      g'.showCount
      return g') := by
  intro g g'
  have h : g.InOrder := (show Reachable g from ⟨urls, changes, rfl⟩).inOrder
  refine ⟨h.closes peer, removePeer_of_slotsOf_eq_nil ?_⟩
  refine List.eq_nil_iff_forall_not_mem.2 fun k hk => ?_
  obtain ⟨hpeer, x, hx⟩ := mem_slotsOf.1 hk
  rw [get?_slots_removePeer, if_pos hpeer] at hx
  cases hx

/-- A stream of one participant with tracks of two connections, the id of one of which begins like
that of the other. -/
example :
    let arrives (peer mid : String) : Change :=
      .addTrack ⟨⟨peer⟩, ⟨mid⟩⟩ ⟨0, ⟨peer ++ mid⟩, .video, ""⟩ ⟨"raw"⟩
    let describes (peer : String) : Change :=
      .announce ⟨peer⟩ [⟨⟨"0"⟩, .video, ⟨"bob"⟩, ⟨"face"⟩⟩]
    let g := ((empty (.fresh fun _ _ => false)).run
      [describes "ann", describes "ann::0", arrives "ann" "0", arrives "ann::0" "0",
        arrives "ann" "1"]).value
    ((g.removePeer ⟨"ann"⟩).value.snapshot.users.map fun e => (e.1, e.2.map fun r =>
      (r.id, r.stream.trackIds))) = [(⟨"bob"⟩, [(⟨"face"⟩, [⟨"ann::00"⟩])])] := by
  decide

end Gallery

end VideoCall

import VideoCall.Proofs.Gallery.Describing
import VideoCall.Proofs.Gallery.Independence
import VideoCall.Proofs.Gallery.Seating

/-!
# Announcements last

What a sender announced stays until the sender's next batch or the end of the call. It stays when
the streams of a participant go, so that a batch which repeats it brings back what was attributed to
the participant. It also stays when a connection goes, although media sections belong to one
connection: the next connection of the same peer starts with the announcements for the last one, and
a track that arrives on it is attributed as was announced for another track.

## Main definitions

* `Gallery.Change.announces` : what is announced for a slot after a change.
* `Gallery.Unassociates` : all that comes of the streams of a participant going.
* `Gallery.Repeats`, `Gallery.said` : a batch that repeats what is announced, and one such batch.
* `Gallery.Recalls` : all that comes of such a batch.

## Main results

* `Gallery.InOrder.get?_announced_run` : what is announced after several changes.
* `Gallery.recalls_run` : what was attributed to a participant comes back.
* `Gallery.attributed_on_return` : where a track is attributed that arrives on a later connection.
-/

namespace VideoCall.Gallery

open Media Wire Outcome
open Announcements (last?)

/-! ### What is announced -/

/-- What is announced for a slot after a change, in terms of what was announced for it before. -/
def Change.announces (k : Slot) (m : Option Announcement) : Change → Option Announcement
  | .announce sender batch => if k.peer = sender then last? batch k.mid else m
  | .reset => none
  | .addTrack .. | .removeTrack .. | .unassociate .. | .removePeer .. | .addLocal ..
  | .removeLocal .. | .setMirror .. => m

section Frames

variable (g : Gallery) (recording : Bool) (type : StreamType)

@[simp]
theorem announced_removeLocal :
    (g.removeLocal recording type).value.1.announced = g.announced := by
  unfold removeLocal
  split <;> rfl

@[simp]
theorem announced_addLocal (stream : Stream) :
    (g.addLocal recording type stream).value.1.announced = g.announced :=
  g.announced_removeLocal recording type

@[simp]
theorem announced_setMirror (t : Track) : (g.setMirror type t).announced = g.announced := by
  unfold setMirror
  split <;> rfl

end Frames

namespace InOrder

variable {g : Gallery} (h : g.InOrder)
include h

theorem get?_announced_apply (change : Change) (k : Slot) :
    (g.apply change).value.announced.get? k = change.announces k (g.announced.get? k) := by
  have hkept : ∀ {a : Announcements}, a = g.announced → a.get? k = g.announced.get? k :=
    fun he => congrArg (fun a => Table.get? a k) he
  cases change with
  | addTrack slot t raw => exact hkept (announced_addTrack slot t raw)
  | removeTrack id => exact hkept (g.announced_removeTrack id)
  | unassociate user => exact hkept (h.recast_unassociate user).announced
  | removePeer peer => exact hkept (g.announced_removePeer peer)
  | announce sender batch => exact (h.describes sender batch).announced k
  | reset => rfl
  | addLocal recording type stream => exact hkept (g.announced_addLocal recording type stream)
  | removeLocal recording type => exact hkept (g.announced_removeLocal recording type)
  | setMirror type t => exact hkept (g.announced_setMirror type t)

/-- What is announced after several changes. -/
theorem get?_announced_run (changes : List Change) (k : Slot) :
    (g.run changes).value.announced.get? k =
      changes.foldl (Change.announces k) (g.announced.get? k) := by
  induction changes generalizing g with
  | nil => rfl
  | cons change changes ih =>
    rw [List.foldl_cons, ← h.get?_announced_apply]
    exact ih (h.apply change)

end InOrder

/-- Without a batch of its sender a slot stays announced, but for the end of the call. -/
theorem Change.announces_eq_some_iff {change : Change} {k : Slot} {m : Option Announcement}
    {a : Announcement} (h : ∀ batch, change ≠ .announce k.peer batch) :
    change.announces k m = some a ↔ m = some a ∧ change ≠ .reset := by
  cases change with
  | announce sender batch =>
    have hne : k.peer ≠ sender := fun he => h batch (he ▸ rfl)
    simp [announces, hne]
  | _ => simp [announces]

theorem foldl_announces_eq_some_iff {changes : List Change} {k : Slot} {m : Option Announcement}
    {a : Announcement} (h : ∀ batch, .announce k.peer batch ∉ changes) :
    changes.foldl (Change.announces k) m = some a ↔ m = some a ∧ .reset ∉ changes := by
  induction changes generalizing m with
  | nil => simp
  | cons change changes ih =>
    have hchange : ∀ batch, change ≠ .announce k.peer batch := fun batch he =>
      h batch (he ▸ List.mem_cons_self)
    have hchanges : ∀ batch, .announce k.peer batch ∉ changes := fun batch hm =>
      h batch (List.mem_cons_of_mem _ hm)
    rw [List.foldl_cons, ih hchanges, Change.announces_eq_some_iff hchange, List.mem_cons, not_or,
      and_assoc, ne_comm]

/-- What is announced for a slot is about its media section. -/
theorem Reachable.mid_of_announced {g : Gallery} (h : g.Reachable) {k : Slot} {m : Announcement}
    (hm : g.announced.get? k = some m) : m.mid = k.mid := by
  have hkeyed : g.InOrder ∧ ∀ m, g.announced.get? k = some m → m.mid = k.mid := by
    refine h.induction (p := fun g => g.InOrder ∧ ∀ m, g.announced.get? k = some m → m.mid = k.mid)
      (fun urls => ⟨inOrder_empty urls, nofun⟩) fun g change hg => ⟨hg.1.apply change, ?_⟩
    intro m hm
    rw [hg.1.get?_announced_apply] at hm
    cases change with
    | announce sender batch =>
      dsimp only [Change.announces] at hm
      split at hm
      · exact Announcements.mid_of_last? hm
      · exact hg.2 m hm
    | reset => cases hm
    | _ => exact hg.2 m hm
  exact hkeyed.2 m hm

/-! ### A participant's streams go -/

/-- All that comes of the streams of a participant going. -/
structure Unassociates (g : Gallery) (user : UserId) (g' : Gallery) : Prop where
  /-- The participant's entry is gone, and the streams of all others are the same. -/
  users : ∀ u, g'.users.get? u = if u = user then none else g.users.get? u
  /-- Each slot keeps its track. It is attributed to no one if it was attributed to the
  participant, and else as before. -/
  slots : ∀ k, g'.slots.get? k = (g.slots.get? k).map fun x =>
    ⟨x.track, x.attribution.filter fun a => a.user ≠ user⟩
  index : g'.index = g.index
  announced : g'.announced = g.announced
  locals : g'.locals = g.locals

theorem users_unassociate (g : Gallery) (user : UserId) :
    (g.unassociate user).value.users = g.users.erase user := by
  unfold unassociate
  split
  · rename_i hu
    exact (Table.erase_of_get?_eq_none hu).symm
  · rename_i shown hu
    obtain ⟨slots, hv, -⟩ := value_dropStreams { g with users := g.users.erase user } shown.streams
    exact congrArg Gallery.users hv

theorem InOrder.unassociates {g : Gallery} (h : g.InOrder) (user : UserId) :
    g.Unassociates user (g.unassociate user).value where
  users u := by
    rw [users_unassociate, Table.get?_erase]
    simp only [Std.LawfulEqCmp.compare_eq_iff_eq]
  slots := (h.recast_unassociate user).slots
  index := (h.recast_unassociate user).index
  announced := (h.recast_unassociate user).announced
  locals := (h.recast_unassociate user).locals

/-! ### A batch repeats what is announced -/

/-- A batch describes the media sections of a sender as they are announced. -/
def Repeats (g : Gallery) (sender : UserId) (batch : List Announcement) : Prop :=
  ∀ mid, last? batch mid = g.announced.get? ⟨sender, mid⟩

/-- What is announced for the slots of a sender. -/
def said (g : Gallery) (sender : UserId) : List Announcement :=
  (g.announced.filter fun k _ => k.peer = sender).values

theorem Reachable.repeats_said {g : Gallery} (h : g.Reachable) (sender : UserId) :
    g.Repeats sender (g.said sender) := by
  intro mid
  have hbatch : Announcements.ofBatch sender (g.said sender) =
      g.announced.filter fun k _ => k.peer = sender := by
    refine Table.ofList_of_perm (List.Perm.of_eq ?_)
    rw [said, Table.values, List.map_map]
    refine (List.map_congr_left fun e he => ?_).trans (List.map_id _)
    obtain ⟨k, m⟩ := e
    have hget := Table.mem_entries_iff.1 he
    rw [Table.get?_filter, Option.filter_eq_some_iff, decide_eq_true_eq] at hget
    obtain ⟨hm, rfl⟩ := hget
    rw [Function.comp_apply, h.mid_of_announced hm, id]
  have hlast := Announcements.get?_ofBatch sender (g.said sender) ⟨sender, mid⟩
  rw [if_pos rfl, hbatch, Table.get?_filter] at hlast
  rw [← hlast]
  cases g.announced.get? ⟨sender, mid⟩ <;> simp

/-- All that comes of a batch that repeats what is announced. -/
structure Recalls (g : Gallery) (sender : UserId) (g' : Gallery) : Prop where
  /-- A track in an announced slot of the sender stays there, attributed as announced. -/
  slots : ∀ k x m, k.peer = sender → g.slots.get? k = some x → g.announced.get? k = some m →
    g'.slots.get? k = some ⟨x.track, some ⟨m.user, m.stream⟩⟩
  /-- It is in the announced stream, and in no other. -/
  shows_iff : ∀ k x m, k.peer = sender → g.slots.get? k = some x → g.announced.get? k = some m →
    ∀ u s, (∃ t, g'.Shows u s t ∧ t.id = x.track.id) ↔ m.user = u ∧ m.stream = s
  /-- The slots of others are as before. -/
  others : ∀ k, k.peer ≠ sender → g'.slots.get? k = g.slots.get? k
  announced : g'.announced = g.announced

theorem InOrder.recalls {g : Gallery} (h : g.InOrder) {sender : UserId}
    {batch : List Announcement} (hbatch : g.Repeats sender batch) :
    g.Recalls sender (g.announce sender batch).value := by
  have hdescribes := h.describes sender batch
  have hslots : ∀ k x m, k.peer = sender → g.slots.get? k = some x → g.announced.get? k = some m →
      (g.announce sender batch).value.slots.get? k = some ⟨x.track, some m.attribution⟩ := by
    rintro k x m rfl hx hm
    rw [hdescribes.slots, hx, Option.map_some, if_pos rfl, hbatch, hm]
    rfl
  refine ⟨hslots, fun k x m hk hx hm u s => ?_, fun k hk => ?_, Table.ext_get? fun k => ?_⟩
  · refine ((h.announce sender batch).shows_id_iff (hslots k x m hk hx hm) u s).trans ?_
    rw [Option.some_inj, Announcement.attribution, Attribution.mk.injEq]
  · rw [hdescribes.slots]
    simp [hk]
  · rw [hdescribes.announced]
    split
    · rename_i hk
      subst hk
      exact hbatch k.mid
    · rfl

/-- In every history the streams of a participant go without the tracks in the slots, and each batch
that repeats what its sender announced brings the tracks of the sender back that were announced for
the participant. -/
theorem recalls_run (urls : UrlSource) (changes : List Change) (user : UserId) :
    let g := ((empty urls).run changes).value
    let g' := (g.unassociate user).value
    g.Unassociates user g' ∧ ∀ sender, g'.Repeats sender (g'.said sender) ∧
      ∀ batch, g'.Repeats sender batch → g'.Recalls sender (g'.announce sender batch).value := by
  intro g g'
  have h : g.InOrder := (show Reachable g from ⟨urls, changes, rfl⟩).inOrder
  have h' : g'.Reachable := by
    refine ⟨urls, changes ++ [.unassociate user], ?_⟩
    rw [value_run_append]
    rfl
  exact ⟨h.unassociates user, fun sender => ⟨h'.repeats_said sender, fun _ => h'.inOrder.recalls⟩⟩

/-! ### A connection goes, and another one comes -/

/-- A track that arrives on a connection after an earlier one of the same peer went is attributed as
was announced for its media section on the earlier one, unless the call ended in between. So it is
attributed to the peer itself, with the id that its stream came with, exactly if the call ended, or
nothing else was announced for the media section. -/
theorem attributed_on_return (urls : UrlSource) (before after : List Change) (peer : UserId)
    (hafter : ∀ batch, .announce peer batch ∉ after) (mid : Mid) (t : Track) (raw : StreamId) :
    let g := ((empty urls).run before).value
    let g' := ((g.removePeer peer).value.run after).value
    ∃ a, g'.Seated ⟨peer, mid⟩ t a (g'.addTrack ⟨peer, mid⟩ t raw).value ∧
      (.reset ∉ after → ∀ m, g.announced.get? ⟨peer, mid⟩ = some m → a = ⟨m.user, m.stream⟩) ∧
      (a = ⟨peer, raw⟩ ↔ .reset ∈ after ∨
        ∀ m, g.announced.get? ⟨peer, mid⟩ = some m → m.user = peer ∧ m.stream = raw) := by
  intro g g'
  have h : (g.removePeer peer).value.InOrder :=
    (show Reachable g from ⟨urls, before, rfl⟩).inOrder.removePeer peer
  refine ⟨_, (h.run after).seated ⟨peer, mid⟩ t raw, ?_⟩
  have hannounced : ∀ m, g'.announced.get? ⟨peer, mid⟩ = some m ↔
      g.announced.get? ⟨peer, mid⟩ = some m ∧ .reset ∉ after := by
    intro m
    rw [h.get?_announced_run, announced_removePeer]
    exact foldl_announces_eq_some_iff hafter
  rw [Announcements.attribution_eq]
  refine ⟨fun hreset m hg => ?_, ?_⟩
  · rw [(hannounced m).2 ⟨hg, hreset⟩]
    rfl
  · cases hm : g'.announced.get? ⟨peer, mid⟩ with
    | none =>
      refine iff_of_true rfl (or_iff_not_imp_left.2 fun hreset m hg => ?_)
      cases hm.symm.trans ((hannounced m).2 ⟨hg, hreset⟩)
    | some m =>
      obtain ⟨hg, hreset⟩ := (hannounced m).1 hm
      simp [hg, hreset, Announcement.attribution]

/-- A media section that was never announced is attributed to the peer on the next connection. -/
theorem attributed_on_return_unannounced :
    let g := ((empty (.fresh fun _ _ => false)).run
      [.announce ⟨"ann"⟩ [⟨⟨"0"⟩, .video, ⟨"bob"⟩, ⟨"face"⟩⟩]]).value
    let g' := ((g.removePeer ⟨"ann"⟩).value.run
      [.addTrack ⟨⟨"cid"⟩, ⟨"0"⟩⟩ ⟨0, ⟨"voice"⟩, .audio, ""⟩ ⟨"raw"⟩]).value
    let t : Track := ⟨1, ⟨"picture"⟩, .video, ""⟩
    g'.Seated ⟨⟨"ann"⟩, ⟨"1"⟩⟩ t ⟨⟨"ann"⟩, ⟨"camera"⟩⟩
      (g'.addTrack ⟨⟨"ann"⟩, ⟨"1"⟩⟩ t ⟨"camera"⟩).value := by
  obtain ⟨a, hseated, -, ha⟩ := attributed_on_return (.fresh fun _ _ => false)
    [.announce ⟨"ann"⟩ [⟨⟨"0"⟩, .video, ⟨"bob"⟩, ⟨"face"⟩⟩]]
    [.addTrack ⟨⟨"cid"⟩, ⟨"0"⟩⟩ ⟨0, ⟨"voice"⟩, .audio, ""⟩ ⟨"raw"⟩] ⟨"ann"⟩ (by simp) ⟨"1"⟩
    ⟨1, ⟨"picture"⟩, .video, ""⟩ ⟨"camera"⟩
  exact ha.2 (.inr (by decide)) ▸ hseated

/-- What was announced on one connection attributes another track on the next. -/
theorem announcement_outlives_connection :
    let g := ((empty (.fresh fun _ _ => false)).run
      [.announce ⟨"ann"⟩ [⟨⟨"0"⟩, .video, ⟨"bob"⟩, ⟨"face"⟩⟩],
        .addTrack ⟨⟨"ann"⟩, ⟨"0"⟩⟩ ⟨0, ⟨"screen"⟩, .video, ""⟩ ⟨"raw"⟩]).value
    let t : Track := ⟨1, ⟨"picture"⟩, .video, ""⟩
    let g' := ((g.removePeer ⟨"ann"⟩).value.addTrack ⟨⟨"ann"⟩, ⟨"0"⟩⟩ t ⟨"camera"⟩).value
    g'.slots.values = [⟨t, some ⟨⟨"bob"⟩, ⟨"face"⟩⟩⟩] ∧
      g'.snapshot.stream? ⟨"ann"⟩ ⟨"camera"⟩ = none := by
  decide

end VideoCall.Gallery

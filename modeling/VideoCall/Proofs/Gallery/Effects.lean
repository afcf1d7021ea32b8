import VideoCall.Gallery.History
import VideoCall.Proofs.Outcome

/-!
# What a gallery does to the world

Received tracks make a gallery mint and release URLs, show how many streams there are, and note what
it misses. Captured streams make it mint and release URLs, stop tracks, and tell the recording. For
the rest a gallery counts the tracks it withdraws. It sends nothing, publishes nothing, answers
nobody, and has no dealings with connections.

## Main definitions

* `Effect.OfTracks`, `Effect.OfCaptures` : the effects that received tracks can have, and those that
  captured streams can have.
* `Effect.OfGallery` : the effects that a gallery can have.

## Main results

* `Gallery.ofTracks_addTrack`, `Gallery.ofTracks_removePeer`, … : received tracks have effects of
  their kind only.
* `Gallery.ofCaptures_addLocal`, `Gallery.ofCaptures_removeLocal` : so do captured streams.
* `Gallery.captures_or_tracks_apply` : every change but a batch has effects of these kinds only.
* `Gallery.emits_apply` : every change of a gallery has effects of a gallery only.
-/

namespace VideoCall

open Outcome Media

namespace Effect

/-- The effects that received tracks can have as they come, move and go. -/
def OfTracks : Effect → Prop
  | .url _ => True
  | .measured (.set .remoteStreams _) => True
  | .missed _ => True
  | _ => False

/-- The effects that captured streams can have. -/
def OfCaptures : Effect → Prop
  | .url _ => True
  | .stopped _ => True
  | .leg _ => True
  | _ => False

/-- The effects that a gallery can have. -/
def OfGallery : Effect → Prop
  | .url _ => True
  | .stopped _ => True
  | .leg _ => True
  | .measured (.set _ _) => True
  | .measured (.count c) => c = .tracksWithdrawn
  | .missed _ => True
  | _ => False

theorem OfTracks.ofGallery {e : Effect} (h : e.OfTracks) : e.OfGallery := by
  cases e with
  | measured m =>
    cases m with
    | count c => exact h.elim
    | set g n => trivial
  | url _ => trivial
  | missed _ => trivial
  | _ => exact h.elim

theorem OfCaptures.ofGallery {e : Effect} (h : e.OfCaptures) : e.OfGallery := by
  cases e with
  | url _ => trivial
  | stopped _ => trivial
  | leg _ => trivial
  | _ => exact h.elim

end Effect

open Effect (OfTracks OfCaptures OfGallery)

namespace Gallery

variable (g : Gallery)

/-! ### Tracks -/

theorem ofTracks_showCount : Emits OfTracks g.showCount := .emit trivial

theorem ofTracks_attach (a : Attribution) (t : Track) : Emits OfTracks (g.attach a t) := by
  dsimp only [attach]
  split
  · exact .pure _
  · exact .bind (.emit trivial) (.pure _)

theorem ofTracks_revoke (url : Option Url) : Emits OfTracks (revoke url) :=
  .forSome (fun _ => .emit trivial) url

theorem ofTracks_detach (a : Attribution) (id : TrackId) : Emits OfTracks (g.detach a id) := by
  unfold detach
  split
  · exact .bind (.emit trivial) (.pure _)
  · split
    · exact .bind (.emit trivial) (.pure _)
    · exact .bind (.when (.emit trivial) _) (.bind (.when (ofTracks_revoke _) _) (.pure _))

theorem ofTracks_detachHeld (h : Holding) : Emits OfTracks (g.detachHeld h) := by
  unfold detachHeld
  split
  · exact ofTracks_detach _ _ _
  · exact .pure _

theorem ofTracks_removeTrack (id : TrackId) : Emits OfTracks (g.removeTrack id) := by
  unfold removeTrack
  repeat' split
  · exact .pure _
  · exact .bind (.emit trivial) (.pure _)
  · exact .pure _
  · exact .bind (ofTracks_detach _ _ _) (.bind (ofTracks_showCount _) (.pure _))

theorem ofTracks_place (slot : Slot) (t : Track) (a : Attribution) :
    Emits OfTracks (g.place slot t a) := by
  have hleave : Emits OfTracks (g.leaveOther slot t.id) := by
    unfold leaveOther
    repeat' split
    · exact .pure _
    · exact .pure _
    · exact .bind (ofTracks_removeTrack _ _) (.pure _)
  exact .bind hleave (.bind (ofTracks_attach _ _ _) (.bind (ofTracks_showCount _) (.pure _)))

theorem ofTracks_addTrack (slot : Slot) (t : Track) (raw : StreamId) :
    Emits OfTracks (g.addTrack slot t raw) := by
  dsimp only [addTrack]
  repeat' split
  · exact ofTracks_place _ _ _ _
  · exact .pure _
  · exact .bind (.bind (ofTracks_removeTrack _ _) (.pure _)) (ofTracks_place _ _ _ _)

/-! ### Participants and connections -/

theorem ofTracks_dropStream (r : RemoteStream) : Emits OfTracks (g.dropStream r) :=
  .bind (ofTracks_revoke r.url) (.pure _)

theorem ofTracks_unassociate (user : UserId) : Emits OfTracks (g.unassociate user) := by
  unfold unassociate
  split
  · exact .pure _
  · exact .bind (.forEach (fun g r _ => g.ofTracks_dropStream r) _)
      (.bind (ofTracks_showCount _) (.pure _))

theorem ofTracks_dropSlot (slot : Slot) : Emits OfTracks (g.dropSlot slot) := by
  unfold dropSlot
  split
  · exact .pure _
  · exact .bind (ofTracks_detachHeld _ _) (.pure _)

theorem ofTracks_removePeer (peer : UserId) : Emits OfTracks (g.removePeer peer) :=
  .bind (.forEach (fun g slot _ => g.ofTracks_dropSlot slot) _)
    (.bind (ofTracks_showCount _) (.pure _))

theorem ofTracks_follow (news : Slot × Wire.Announcement) : Emits OfTracks (g.follow news) := by
  dsimp only [follow]
  repeat' split
  · exact .pure _
  · exact ofTracks_addTrack _ _ _ _
  · exact .pure _
  · exact .bind (ofTracks_removeTrack _ _) (ofTracks_addTrack _ _ _ _)

/-! ### Captured streams -/

theorem ofCaptures_revoke (url : Option Url) : Emits OfCaptures (revoke url) :=
  .forSome (fun _ => .emit trivial) url

theorem ofCaptures_stopAll (m : Stream) : Emits OfCaptures (stopAll m) := .emitAll fun e he => by
  obtain ⟨t, -, rfl⟩ := List.mem_map.1 he
  trivial

theorem ofCaptures_tell (recording : Bool) (e : LegEvent) : Emits OfCaptures (tell recording e) :=
  .when (.emit trivial) recording

theorem ofCaptures_removeLocal (recording : Bool) (type : StreamType) :
    Emits OfCaptures (g.removeLocal recording type) := by
  unfold removeLocal
  split
  · exact .pure _
  · exact .bind (ofCaptures_tell _ _)
      (.bind (.bind (ofCaptures_stopAll _) (ofCaptures_revoke _)) (.pure _))

theorem ofCaptures_addLocal (recording : Bool) (type : StreamType) (stream : Stream) :
    Emits OfCaptures (g.addLocal recording type stream) :=
  .bind (ofCaptures_removeLocal _ _ _)
    (.bind (.emit trivial) (.bind (ofCaptures_tell _ _) (.pure _)))

/-! ### All changes -/

theorem emits_addTrack (slot : Slot) (t : Track) (raw : StreamId) :
    Emits OfGallery (g.addTrack slot t raw) :=
  (g.ofTracks_addTrack slot t raw).mono fun _ => OfTracks.ofGallery

theorem emits_removeTrack (id : TrackId) : Emits OfGallery (g.removeTrack id) :=
  (g.ofTracks_removeTrack id).mono fun _ => OfTracks.ofGallery

theorem emits_removePeer (peer : UserId) : Emits OfGallery (g.removePeer peer) :=
  (g.ofTracks_removePeer peer).mono fun _ => OfTracks.ofGallery

theorem emits_announce (sender : UserId) (batch : List Wire.Announcement) :
    Emits OfGallery (g.announce sender batch) := by
  have hwithdraw : ∀ (g : Gallery) id, Emits OfGallery (g.withdraw id) := fun g id =>
    .bind (g.emits_removeTrack id) (.bind (.emit rfl) (.pure _))
  have hfollow : ∀ (g : Gallery) news, Emits OfGallery (g.follow news) := fun g news =>
    (g.ofTracks_follow news).mono fun _ => OfTracks.ofGallery
  exact .bind (.forEach (fun g id _ => hwithdraw g id) _)
    (.forEach (fun g news _ => hfollow g news) _)

theorem emits_removeLocal (recording : Bool) (type : StreamType) :
    Emits OfGallery (g.removeLocal recording type) :=
  (g.ofCaptures_removeLocal recording type).mono fun _ => OfCaptures.ofGallery

theorem emits_addLocal (recording : Bool) (type : StreamType) (stream : Stream) :
    Emits OfGallery (g.addLocal recording type stream) :=
  (g.ofCaptures_addLocal recording type stream).mono fun _ => OfCaptures.ofGallery

theorem captures_or_tracks_reset : Emits (fun e => e.OfCaptures ∨ e.OfTracks) g.reset := by
  have hrelease (m : Stream) (url : Option Url) :
      Emits (fun e => e.OfCaptures ∨ e.OfTracks) (stopAll m >>= fun _ => revoke url) :=
    .mono (.bind (ofCaptures_stopAll m) (ofCaptures_revoke url)) fun _ => Or.inl
  refine .bind (.forEach (fun _ m _ => hrelease m.stream m.url) _)
    (.bind (.forEach (fun _ r _ => hrelease r.stream r.url) _) (.bind (.emitAll fun e he => ?_)
      (.bind ((ofTracks_showCount _).mono fun _ => Or.inr) (.pure _))))
  obtain ⟨x, -, rfl⟩ := List.mem_map.1 he
  exact Or.inl trivial

/-- Every change but a batch has effects of received tracks or of captured streams only. -/
theorem captures_or_tracks_apply {change : Change}
    (hchange : ∀ sender batch, change ≠ .announce sender batch) :
    Emits (fun e => e.OfCaptures ∨ e.OfTracks) (g.apply change) := by
  cases change with
  | addTrack slot t raw => exact (g.ofTracks_addTrack slot t raw).mono fun _ => Or.inr
  | removeTrack id => exact (g.ofTracks_removeTrack id).mono fun _ => Or.inr
  | unassociate user => exact (g.ofTracks_unassociate user).mono fun _ => Or.inr
  | removePeer peer => exact (g.ofTracks_removePeer peer).mono fun _ => Or.inr
  | announce sender batch => exact absurd rfl (hchange sender batch)
  | reset => exact g.captures_or_tracks_reset
  | addLocal recording type stream =>
    exact ((g.ofCaptures_addLocal recording type stream).map _).mono fun _ => Or.inl
  | removeLocal recording type =>
    exact ((g.ofCaptures_removeLocal recording type).map _).mono fun _ => Or.inl
  | setMirror type t => exact .pure _

/-- Every change of a gallery has effects of a gallery only. -/
theorem emits_apply (change : Change) : Emits OfGallery (g.apply change) := by
  by_cases hchange : ∃ sender batch, change = .announce sender batch
  · obtain ⟨sender, batch, rfl⟩ := hchange
    exact g.emits_announce sender batch
  · simp only [not_exists] at hchange
    exact (g.captures_or_tracks_apply hchange).mono fun _ he =>
      he.elim OfCaptures.ofGallery OfTracks.ofGallery

end Gallery

end VideoCall

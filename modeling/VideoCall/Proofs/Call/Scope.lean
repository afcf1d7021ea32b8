import VideoCall.Proofs.Call.Effects

/-!
# What each input bears on

A call reacts to an input with effects that bear on few things, and on which ones goes by the input.
No report of a connection opens another one; the recording service is asked only when its
connection has an envelope for it; and only rosters, deadlines and the participant are answered.

## Main definitions

* `Call.Input.parts` : what the reaction to an input may bear on.

## Main results

* `Call.within_meet` : the reaction to an input bears on nothing else.
* `Call.Input.of_join_mem_parts`, `Call.Input.of_answer_mem_parts` : what may ask the recording
  service, and what may be answered.
-/

namespace VideoCall

open Outcome Peer Wire Media
open Effect (Within)

namespace Effect.Part

/-- What a change of the gallery bears on that is published. -/
def change : List Part := [.gallery, .metrics, .streams]

/-- What the beginning of a recording bears on, or its end. -/
def recorded : List Part := [.opening, .destruction, .command, .metrics, .recording]

/-- What a message of the relay may bear on. -/
def ofMessage : Incoming → List Part
  | .roster _ => .words :: .answer :: recorded
  | .signal _ _ => [.command, .metrics]
  | .announcements _ _ => change
  | .hangUp _ => change
  | .roomCreated _ => [.relay]
  | .recordOutcome _ => recorded

/-- What a report of the connection to a participant may bear on. -/
def ofReport : Report → List Part
  | .signal _ => [.relay]
  | .connected => []
  | .renegotiating => []
  | .track _ _ _ => change
  | .muted _ => change
  | .unmuted _ _ _ => change
  | .data _ => [.words]
  | .failed _ => .destruction :: change
  | .closed => .destruction :: change

/-- What a report of the connection to the recording service may bear on. -/
def ofRecordingReport : Report → List Part
  | .signal _ => [.join]
  | .failed _ => recorded
  | .closed => recorded
  | _ => []

/-- What the participant may bear on. -/
def ofIntent : Intent → List Part
  | .dial _ => [.metrics, .answer, .relay]
  | .hangUp => .relay :: .answer :: .destruction :: .recording :: change
  | .toggleRecord => [.relay, .answer]
  | .addLocal _ _ => .command :: change ++ [.answer]
  | .removeLocal _ => .command :: change ++ [.answer]
  | .trackChanged _ _ => [.streams, .answer]
  | .getStatus => [.answer]

end Effect.Part

namespace Call

open Effect (Part)

/-- What the reaction to an input may bear on. -/
def Input.parts : Input → List Part
  | .relay .connected => [.words, .relay]
  | .relay .disconnected => [.words]
  | .relay (.message m) => .metrics :: Part.ofMessage m
  | .report _ (.participant _) r => Part.ofReport r
  | .report _ .recording r => Part.ofRecordingReport r
  | .reply _ _ => [.command, .words]
  | .intent _ i => Part.ofIntent i
  | .deadline => [.words, .metrics, .answer]

namespace Input

variable {i : Input}

/-- The service is asked only when its connection has an envelope for it. -/
theorem of_join_mem_parts (h : Part.join ∈ i.parts) :
    ∃ n s, i = .report n .recording (.signal s) := by
  cases i with
  | relay e =>
    cases e with
    | message m => cases m <;> simp [parts, Part.ofMessage, Part.change, Part.recorded] at h
    | _ => simp [parts] at h
  | report n key r =>
    cases key with
    | participant u => cases r <;> simp [parts, Part.ofReport, Part.change] at h
    | recording =>
      cases r with
      | signal s => exact ⟨n, s, rfl⟩
      | _ => simp [parts, Part.ofRecordingReport, Part.recorded] at h
  | reply session result => simp [parts] at h
  | intent ticket i => cases i <;> simp [parts, Part.ofIntent, Part.change] at h
  | deadline => simp [parts] at h

/-- Only rosters, intents and deadlines are answered. -/
theorem of_answer_mem_parts (h : Part.answer ∈ i.parts) :
    (∃ r, i = .relay (.message (.roster r))) ∨ (∃ ticket j, i = .intent ticket j) ∨
      i = .deadline := by
  cases i with
  | relay e =>
    cases e with
    | message m =>
      cases m with
      | roster r => exact Or.inl ⟨r, rfl⟩
      | _ => simp [parts, Part.ofMessage, Part.change, Part.recorded] at h
    | _ => simp [parts] at h
  | report n key r =>
    cases key <;> cases r <;>
      simp [parts, Part.ofReport, Part.ofRecordingReport, Part.change, Part.recorded] at h
  | reply session result => simp [parts] at h
  | intent ticket j => exact Or.inr (Or.inl ⟨ticket, j, rfl⟩)
  | deadline => exact Or.inr (Or.inr rfl)

end Input

variable (c : Call)

/-! ### The recording -/

theorem within_publishRecording (active : Bool) :
    Emits (Within [.recording]) (publishRecording active) :=
  .emit (List.mem_singleton_self _)

theorem within_startRecording (url : Option String) :
    Emits (Within Part.recorded) (c.startRecording url) :=
  ((c.recorder.within_start _ _ _ _ _).also
    (.bind (.when (within_publishRecording true) _) (.pure _))).widen (by decide)

theorem within_stopRecording (loud : Bool) :
    Emits (Within [.destruction, .metrics, .recording]) (c.stopRecording loud) :=
  c.recorder.within_stop.also (.bind (.when (within_publishRecording false) _) (.pure _))

theorem within_applyRecording (recording : Bool) (url : Option String) :
    Emits (Within Part.recorded) (c.applyRecording recording url) := by
  unfold applyRecording
  split
  · exact c.within_startRecording url
  · exact (c.within_stopRecording true).widen (by decide)

theorem within_onRecordingReport (r : Report) :
    Emits (Within (Part.ofRecordingReport r)) (c.onRecordingReport r) := by
  -- a recording that goes on is not published again
  have hgoOn : ∀ {recorder : Recorder}, recorder.active = c.recorder.active →
      when (c.recorder.active && !recorder.active) (publishRecording false) = pure () := by
    intro recorder h
    rw [h, Bool.and_not_self]
    rfl
  have hidle : Emits (Within []) (when (c.recorder.active && !c.recorder.active)
      (publishRecording false)) := by
    rw [hgoOn rfl]
    exact .pure _
  have hstop : Emits (Within Part.recorded) ((·.1) <$> c.recorder.stop >>= fun recorder =>
      when (c.recorder.active && !recorder.active) (publishRecording false) >>= fun _ =>
        (pure { c with recorder := recorder } : Outcome Call)) := by
    have hmap : Emits (Within [.destruction, .metrics]) ((·.1) <$> c.recorder.stop) :=
      c.recorder.within_stop.map _
    have hpublish := fun b : Bool => (within_publishRecording false).when b
    exact (hmap.also ((hpublish _).bind (.pure _))).widen (by decide)
  cases r with
  | signal s =>
    have hoffer : Emits (Within []) (when (c.recorder.active && !(c.recorder.offer s).value.active)
        (publishRecording false)) := by
      rw [hgoOn (c.recorder.active_offer s)]
      exact .pure _
    exact (c.recorder.within_offer s).bind ((hoffer.widen (by decide)).bind (.pure _))
  | failed e => exact hstop
  | closed => exact hstop
  | _ => exact .bind (.pure _) (hidle.bind (.pure _))

/-! ### The relay -/

theorem within_connectTo (initiator : Bool) (user : UserId) :
    Emits (Within [.opening, .command, .metrics, .words]) (c.connectTo initiator user) :=
  ((c.mesh.within_create c.board user initiator c.captured).also
    (.bind (within_tellRefusal _) (.pure _))).widen (by decide)

theorem within_onRoster (r : Roster) :
    Emits (Within (.words :: .answer :: Part.recorded)) (c.onRoster r) := by
  have hconnect : ∀ (c : Call) initiator user,
      Emits (Within (.words :: .answer :: Part.recorded)) (c.connectTo initiator user) :=
    fun c initiator user => (c.within_connectTo initiator user).widen (by decide)
  exact ((within_notify _ _).widen (by decide)).bind
    ((Emits.forEach (fun c user _ => hconnect c _ user) _).bind
      (((within_settleCounted _ _ _).widen (by decide)).bind
        ((within_applyRecording _ _ _).widen (by decide))))

/-- The gallery changes, and that is published. -/
theorem within_change (change : Gallery.Change) (f : Gallery → Call) :
    Emits (Within Part.change) (c.gallery.apply change >>= fun g =>
      (f g).publishStreams >>= fun _ => pure (f g)) :=
  (c.gallery.within_apply change).also (.bind (within_publishStreams _) (.pure _))

theorem within_onAdmitted (m : Incoming) : Emits (Within (Part.ofMessage m)) (c.onAdmitted m) := by
  cases m with
  | roster r => exact c.within_onRoster r
  | signal sender s => exact .bind (c.mesh.within_signal c.board sender s) (.pure _)
  | announcements sender batch => exact c.within_change (.announce sender batch) _
  | hangUp user => exact c.within_change (.unassociate user) _
  | roomCreated creator => exact .bind (.forSome c.within_send _) (.pure _)
  | recordOutcome r =>
    rw [onAdmitted]
    split
    · exact c.within_applyRecording _ _
    · exact .pure _

theorem within_onRelay (e : Relay.Event) : Emits (Within (Input.relay e).parts) (c.onRelay e) := by
  cases e with
  | connected => exact (within_notify _ _).also (.bind (c.within_send _) (.pure _))
  | disconnected =>
    rw [onRelay]
    split
    · exact .bind (within_notify _ _) (.pure _)
    · exact .pure _
  | message m =>
    rw [onRelay, onMessage]
    split
    · exact (c.within_onAdmitted m).widen fun _ => List.mem_cons_of_mem _
    · exact ((within_count _).widen (by simp [Input.parts])).bind (.pure _)

/-! ### Connections -/

theorem within_tearDown (user : UserId) (reason : CloseReason) :
    Emits (Within (.destruction :: Part.change)) (c.tearDown user reason) :=
  ((c.mesh.within_close user reason).also ((c.gallery.within_apply (.removePeer user)).also
    (.bind (within_publishStreams _) (.pure _)))).widen (by decide)

theorem within_onMuted (user : UserId) (id : TrackId) :
    Emits (Within Part.change) (c.onMuted user id) := by
  unfold onMuted
  split
  · exact c.within_change (.removeTrack id) _
  · exact .pure _

theorem within_onPeerReport (user : UserId) (r : Report) :
    Emits (Within (Part.ofReport r)) (c.onPeerReport user r) := by
  cases r with
  | signal s => exact .bind (c.within_send _) (.pure _)
  | connected => exact .pure _
  | renegotiating => exact .pure _
  | track t stream mid => exact c.within_change (.addTrack ⟨user, mid⟩ t stream) _
  | muted id => exact c.within_onMuted user id
  | unmuted t stream mid => exact c.within_change (.addTrack ⟨user, mid⟩ t stream) _
  | data bytes => exact .bind (within_data _ _) (.pure _)
  | failed e => exact c.within_tearDown user _
  | closed => exact c.within_tearDown user _

theorem within_onReport (line : Nat) (key : Key) (r : Report) :
    Emits (Within (Input.report line key r).parts) (c.onReport key r) := by
  cases key with
  | recording => exact c.within_onRecordingReport r
  | participant user =>
    unfold onReport
    dsimp only
    split
    · exact .pure _
    · exact within_onPeerReport _ user r

theorem within_onReply (session : Nat) (result : Except Recorder.JoinError Signal) :
    Emits (Within [.command, .words]) (c.onReply session result) :=
  (c.recorder.within_reply c.board session result).also
    (.bind (.forSome (fun _ => within_notify _ _) _) (.pure _))

/-! ### The participant -/

theorem within_release (loud : Bool) :
    Emits (Within [.destruction, .metrics, .recording, .gallery]) (c.release loud) :=
  ((c.mesh.within_closeAll .hangUp).also ((within_stopRecording _ loud).also
    (.bind (c.gallery.within_apply .reset) (.pure _)))).widen (by decide)

theorem within_dial (now ticket : Nat) (nickname : String) :
    Emits (Within [.metrics, .answer, .relay]) (c.dial now ticket nickname) :=
  ((within_settleCounted _ _ _).also (.bind (within_send _ _) (.pure _))).widen (by decide)

theorem within_hangUp :
    Emits (Within (.relay :: .answer :: .destruction :: .recording :: Part.change)) c.hangUp :=
  ((c.within_send _).also ((within_settleDial _ _).also ((within_release _ true).also
    (.bind (within_publishStreams _) (.pure _))))).widen (by decide)

theorem within_addLocal (type : StreamType) (stream : Stream) :
    Emits (Within (.command :: Part.change)) (c.addLocal type stream) :=
  ((Emits.forSome (fun _ => c.mesh.within_tellAll _ _) _).also
    ((Recorder.within_follow _ _ (c.gallery.emits_addLocal _ type stream)).also
      ((Mesh.within_tellAll _ _ _).also
        (.bind (within_publishStreams _) (.pure _))))).widen (by decide)

theorem within_removeLocal (type : StreamType) :
    Emits (Within (.command :: Part.change)) (c.removeLocal type) := by
  have hgone : ∀ (c : Call) (m : LocalStream), Emits (Within [.command, .streams])
      (c.mesh.tellAll c.board (.removeStream m.stream) >>= fun _ => c.publishStreams) :=
    fun c _ => (c.mesh.within_tellAll _ _).also c.within_publishStreams
  exact ((Recorder.within_follow _ _ (c.gallery.emits_removeLocal _ type)).also
    (.bind (.forSome (fun m => hgone _ m) _) (.pure _))).widen (by decide)

theorem within_onIntent (now ticket : Nat) (i : Intent) :
    Emits (Within (Part.ofIntent i)) (c.onIntent now ticket i) := by
  cases i with
  | dial nickname => exact c.within_dial now ticket nickname
  | hangUp =>
    exact (c.within_hangUp.also (.bind (within_answer _ _) (.pure _))).widen (by decide)
  | toggleRecord => exact (c.within_send _).also (.bind (within_answer _ _) (.pure _))
  | addLocal type stream =>
    exact (c.within_addLocal type stream).also (.bind (within_answer _ _) (.pure _))
  | removeLocal type =>
    exact (c.within_removeLocal type).also (.bind (within_answer _ _) (.pure _))
  | trackChanged type t =>
    exact (within_publishStreams _).also (.bind (within_answer _ _) (.pure _))
  | getStatus => exact .bind (within_answer _ _) (.pure _)

theorem within_onDeadline : Emits (Within [.words, .metrics, .answer]) c.onDeadline := by
  unfold onDeadline
  split
  · exact .pure _
  · exact (within_notify _ _).also (within_settleCounted _ _ _)

/-! ### All inputs -/

/-- The reaction to an input bears on nothing but what goes with the input. -/
theorem within_meet (m : Moment) : Emits (Within m.input.parts) (c.meet m) := by
  obtain ⟨now, refusals, i⟩ := m
  cases i with
  | relay e => exact within_onRelay _ e
  | report line key r => exact within_onReport _ line key r
  | reply session result => exact within_onReply _ session result
  | intent ticket i => exact within_onIntent _ now ticket i
  | deadline => exact within_onDeadline _

end Call

end VideoCall

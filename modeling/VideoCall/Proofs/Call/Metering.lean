import VideoCall.Proofs.Call.Gauges
import VideoCall.Proofs.Call.Scope

/-!
# Which metrics each input touches

A call counts and sets gauges as it reacts, and which metrics it touches goes by the input. Streams
of participants are shown anew when tracks or announcements come, legs of the recording when the
recording or the captured streams change, and how a dial ended is counted by rosters, deadlines, and
newer dials alone.

## Main definitions

* `Call.Input.metrics` : the metrics that the reaction to an input may touch.

## Main results

* `Call.touches_meet` : the reaction to an input touches no other metric.
* `Call.touches_shutDown` : nor does the end of the call touch any but those of a hang-up.
-/

namespace VideoCall

open Outcome Peer Wire Media
open Effect (Touches)

namespace Metric

/-- What a change of the gallery touches. -/
def ofGallery : List Metric := [.gauge .remoteStreams, .counter .tracksWithdrawn]

/-- What a message of the relay may touch, if it counts. -/
def ofMessage : Incoming → List Metric
  | .roster _ => [.counter .peersCreated, .counter (.dials .joined), .gauge .recordingLegs]
  | .signal _ _ => [.counter (.signalsDropped .unknownPeer)]
  | .announcements _ _ => ofGallery
  | .hangUp _ => ofGallery
  | .roomCreated _ => []
  | .recordOutcome _ => [.gauge .recordingLegs]

/-- What a report of the connection to a participant may touch. -/
def ofReport : Report → List Metric
  | .track _ _ _ => ofGallery
  | .muted _ => ofGallery
  | .unmuted _ _ _ => ofGallery
  | .failed _ => .counter (.peersClosed .error) :: ofGallery
  | .closed => .counter (.peersClosed .remoteClose) :: ofGallery
  | _ => []

/-- What the release of everything touches. -/
def ofRelease : List Metric :=
  .counter (.peersClosed .hangUp) :: .gauge .recordingLegs :: ofGallery

/-- What the participant may touch. -/
def ofIntent : Intent → List Metric
  | .dial _ => [.counter (.dials .superseded)]
  | .hangUp => ofRelease
  | .addLocal _ _ => [.gauge .recordingLegs]
  | .removeLocal _ => [.gauge .recordingLegs]
  | _ => []

end Metric

theorem Outcome.Emits.touchesMore {α : Type} {o : Outcome α} {ms ns : List Metric}
    (h : Emits (Touches ms) o) (hms : ∀ m ∈ ms, m ∈ ns) : Emits (Touches ns) o :=
  h.mono fun _ he => he.widen hms

namespace Call

/-- The metrics that the reaction to an input may touch. -/
def Input.metrics : Input → List Metric
  | .relay .connected => []
  | .relay .disconnected => []
  | .relay (.message m) => .counter (.signalsDropped .notJoined) :: Metric.ofMessage m
  | .report _ (.participant _) r => Metric.ofReport r
  | .report _ .recording _ => [.gauge .recordingLegs]
  | .reply _ _ => []
  | .intent _ i => Metric.ofIntent i
  | .deadline => [.counter (.dials .timeout)]

variable (c : Call)

/-! ### Steps that touch no metric -/

theorem touches_send (m : Outgoing) : Emits (Touches []) (c.send m) :=
  (c.within_send m).touches (by decide)

theorem touches_notify (level : Level) (message : String) :
    Emits (Touches []) (notify level message) :=
  (within_notify level message).touches (by decide)

theorem touches_publishStreams : Emits (Touches []) c.publishStreams :=
  c.within_publishStreams.touches (by decide)

theorem touches_answer (ticket : Nat) (a : Answer) :
    Emits (Touches []) (emit (.answered ticket a)) :=
  (within_answer ticket a).touches (by decide)

theorem touches_settleDial (a : Answer) : Emits (Touches []) (c.settleDial a) :=
  (c.within_settleDial a).touches (by decide)

/-! ### The recording -/

theorem touches_stopRecording (loud : Bool) :
    Emits (Touches [.gauge .recordingLegs]) (c.stopRecording loud) :=
  .bind c.recorder.gauged_stop.touches (.bind (.when (.emit trivial) _) (.pure _))

theorem touches_applyRecording (recording : Bool) (url : Option String) :
    Emits (Touches [.gauge .recordingLegs]) (c.applyRecording recording url) := by
  unfold applyRecording
  split
  · exact .bind (c.recorder.gauged_start _ _ _ _ _).touches
      (.bind (.when (.emit trivial) _) (.pure _))
  · exact c.touches_stopRecording true

theorem touches_onRecordingReport (r : Report) :
    Emits (Touches [.gauge .recordingLegs]) (c.onRecordingReport r) :=
  .bind (c.recorder.gauged_report r).touches (.bind (.when (.emit trivial) _) (.pure _))

/-! ### The relay -/

theorem touches_connectTo (initiator : Bool) (user : UserId) :
    Emits (Touches [.counter .peersCreated]) (c.connectTo initiator user) :=
  .bind (c.mesh.touches_create _ _ _ _)
    (.bind ((within_tellRefusal _).touches (by decide) |>.touchesMore nofun) (.pure _))

/-- The connections that a roster leads to are counted one by one. -/
theorem touches_connectEach (initiator : Bool) (users : List UserId) :
    Emits (Touches [.counter .peersCreated])
      (forEach (fun c user => connectTo c initiator user) users c) :=
  .forEach (fun c user _ => c.touches_connectTo initiator user) c

theorem touches_onRoster (r : Roster) :
    Emits (Touches (Metric.ofMessage (.roster r))) (c.onRoster r) := by
  refine .bind ((touches_notify _ _).touchesMore nofun)
    (.bind ((touches_connectEach _ _ _).touchesMore ?_) (.bind
      ((touches_settleCounted _ _ _).touchesMore ?_)
      ((touches_applyRecording _ _ _).touchesMore ?_))) <;>
    simp [Metric.ofMessage]

/-- The gallery changes, and that is published. -/
theorem touches_change (change : Gallery.Change) (f : Gallery → Call) :
    Emits (Touches Metric.ofGallery) (c.gallery.apply change >>= fun g =>
      (f g).publishStreams >>= fun _ => pure (f g)) :=
  .bind (c.gallery.touches_apply change)
    (.bind ((touches_publishStreams _).touchesMore nofun) (.pure _))

theorem touches_onAdmitted (m : Incoming) :
    Emits (Touches (Metric.ofMessage m)) (c.onAdmitted m) := by
  cases m with
  | roster r => exact c.touches_onRoster r
  | signal sender s => exact .bind (c.mesh.touches_signal _ _ _) (.pure _)
  | announcements sender batch => exact c.touches_change (.announce sender batch) _
  | hangUp user => exact c.touches_change (.unassociate user) _
  | roomCreated creator => exact .bind (.forSome c.touches_send _) (.pure _)
  | recordOutcome r =>
    rw [onAdmitted]
    split
    · exact c.touches_applyRecording _ _
    · exact .pure c

theorem touches_onRelay (e : Relay.Event) :
    Emits (Touches (Input.relay e).metrics) (c.onRelay e) := by
  cases e with
  | connected => exact .bind (touches_notify _ _) (.bind (c.touches_send _) (.pure _))
  | disconnected =>
    rw [onRelay]
    split
    · exact .bind (touches_notify _ _) (.pure _)
    · exact .pure c
  | message m =>
    rw [onRelay, onMessage]
    split
    · exact (c.touches_onAdmitted m).touchesMore fun _ => List.mem_cons_of_mem _
    · exact .bind (touches_dropped.touchesMore (by simp [Input.metrics])) (.pure _)

/-! ### Connections -/

theorem touches_tearDown (user : UserId) (reason : CloseReason) :
    Emits (Touches (.counter (.peersClosed reason) :: Metric.ofGallery))
      (c.tearDown user reason) :=
  .bind ((c.mesh.touches_close user reason).touchesMore (by simp))
    ((touches_change { c with mesh := (c.mesh.close user reason).value.1 } (.removePeer user)
      fun g => { c with mesh := (c.mesh.close user reason).value.1, gallery := g }).touchesMore
        fun _ => List.mem_cons_of_mem _)

theorem touches_onMuted (user : UserId) (id : TrackId) :
    Emits (Touches Metric.ofGallery) (c.onMuted user id) := by
  unfold onMuted
  split
  · exact c.touches_change (.removeTrack id) _
  · exact .pure c

theorem touches_onPeerReport (user : UserId) (r : Report) :
    Emits (Touches (Metric.ofReport r)) (c.onPeerReport user r) := by
  cases r with
  | signal s => exact .bind (c.touches_send _) (.pure _)
  | track t stream mid => exact c.touches_change (.addTrack ⟨user, mid⟩ t stream) _
  | muted id => exact c.touches_onMuted user id
  | unmuted t stream mid => exact c.touches_change (.addTrack ⟨user, mid⟩ t stream) _
  | data bytes => exact .bind (.emit trivial) (.pure _)
  | failed e => exact c.touches_tearDown user _
  | closed => exact c.touches_tearDown user _
  | _ => exact .pure c

theorem touches_onReport (line : Nat) (key : Key) (r : Report) :
    Emits (Touches (Input.report line key r).metrics) (c.onReport key r) := by
  cases key with
  | recording => exact c.touches_onRecordingReport r
  | participant user =>
    unfold onReport
    dsimp only
    split
    · exact .pure c
    · exact touches_onPeerReport _ user r

/-! ### The participant -/

theorem touches_release (loud : Bool) : Emits (Touches Metric.ofRelease) (c.release loud) := by
  refine .bind ((c.mesh.touches_closeAll .hangUp).touchesMore ?_)
    (.bind ((touches_stopRecording _ loud).touchesMore ?_)
      (.bind ((c.gallery.touches_apply .reset).touchesMore ?_) (.pure _))) <;>
    simp [Metric.ofRelease, Metric.ofGallery]

theorem touches_hangUp : Emits (Touches Metric.ofRelease) c.hangUp :=
  .bind ((c.touches_send _).touchesMore nofun)
    (.bind ((touches_settleDial _ _).touchesMore nofun)
      (.bind (touches_release _ true)
        (.bind ((touches_publishStreams _).touchesMore nofun) (.pure _))))

theorem touches_dial (now ticket : Nat) (nickname : String) :
    Emits (Touches [.counter (.dials .superseded)]) (c.dial now ticket nickname) :=
  .bind (c.touches_settleCounted _ _) (.bind ((touches_send _ _).touchesMore nofun) (.pure _))

theorem touches_addLocal (type : StreamType) (stream : Stream) :
    Emits (Touches [.gauge .recordingLegs]) (c.addLocal type stream) :=
  .bind (.forSome (fun _ => (c.mesh.touches_tellAll _ _).touchesMore nofun) _)
    (.bind (c.recorder.gauged_follow c.board (c.gallery.ofCaptures_addLocal _ type stream)).touches
      (.bind ((Mesh.touches_tellAll _ _ _).touchesMore nofun)
        (.bind ((touches_publishStreams _).touchesMore nofun) (.pure _))))

theorem touches_removeLocal (type : StreamType) :
    Emits (Touches [.gauge .recordingLegs]) (c.removeLocal type) := by
  have hgone (c : Call) (m : LocalStream) : Emits (Touches [.gauge .recordingLegs])
      (c.mesh.tellAll c.board (.removeStream m.stream) >>= fun _ => c.publishStreams) :=
    (Emits.bind (c.mesh.touches_tellAll _ _) c.touches_publishStreams).touchesMore nofun
  exact .bind (c.recorder.gauged_follow c.board (c.gallery.ofCaptures_removeLocal _ type)).touches
    (.bind (.forSome (fun m => hgone _ m) _) (.pure _))

theorem touches_onIntent (now ticket : Nat) (i : Intent) :
    Emits (Touches (Metric.ofIntent i)) (c.onIntent now ticket i) := by
  have hanswer {ms : List Metric} (a : Answer) : Emits (Touches ms) (emit (.answered ticket a)) :=
    (touches_answer ticket a).touchesMore nofun
  cases i with
  | dial nickname => exact c.touches_dial now ticket nickname
  | hangUp => exact .bind c.touches_hangUp (.bind (hanswer _) (.pure _))
  | toggleRecord => exact .bind (c.touches_send _) (.bind (hanswer _) (.pure _))
  | addLocal type stream =>
    exact .bind (c.touches_addLocal type stream) (.bind (hanswer _) (.pure _))
  | removeLocal type => exact .bind (c.touches_removeLocal type) (.bind (hanswer _) (.pure _))
  | trackChanged type t =>
    exact .bind (touches_publishStreams _) (.bind (hanswer _) (.pure _))
  | getStatus => exact .bind (hanswer _) (.pure _)

theorem touches_onDeadline : Emits (Touches [.counter (.dials .timeout)]) c.onDeadline := by
  unfold onDeadline
  split
  · exact .pure c
  · exact .bind ((touches_notify _ _).touchesMore nofun) (touches_settleCounted _ _ _)

/-! ### All inputs -/

/-- The reaction to an input touches no metric but those that go with the input. -/
theorem touches_meet (m : Moment) : Emits (Touches m.input.metrics) (c.meet m) := by
  obtain ⟨now, refusals, i⟩ := m
  cases i with
  | relay e => exact touches_onRelay _ e
  | report line key r => exact touches_onReport _ line key r
  | reply session result => exact (within_onReply _ session result).touches (by decide)
  | intent ticket i => exact touches_onIntent _ now ticket i
  | deadline => exact touches_onDeadline _

/-- The end of the call touches no metric but those of the release. -/
theorem touches_shutDown : Emits (Touches Metric.ofRelease) c.shutDown :=
  .bind ((c.touches_settleDial _).touchesMore nofun) (touches_release _ false)

end Call

end VideoCall

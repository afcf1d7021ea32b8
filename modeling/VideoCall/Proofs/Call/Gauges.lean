import VideoCall.Proofs.Call.Traffic
import VideoCall.Proofs.Gallery.Describing
import VideoCall.Proofs.Recorder.Gauge

/-!
# What the gauges show is so

Two gauges show how a call is: how many streams of participants there are, and how many streams are
being recorded. Each is set by hand where streams or legs may have changed, and nowhere else. So
once an input was dealt with, each shows what a recount would give. A counter tells how many tracks
were withdrawn in all: one for each slot that was attributed when a batch came in from its sender,
and that the batch does not describe.

## Main definitions

* `Call.Measures` : what a step of a call does to the gauges and to the counter.
* `Call.withdrawn` : the slots from which an input withdraws the tracks.

## Main results

* `Call.measures_meet` : every moment leaves the gauges right and counts what it withdraws.
* `Call.gauges_run` : in every history the gauges and the counter are right.
-/

namespace VideoCall

open Outcome Peer Wire Media
open Effect (Within Touches Part)

/-- What does not bear on metrics touches none. -/
theorem Outcome.Emits.touches {α : Type} {o : Outcome α} {ps : List Part}
    (h : Emits (Within ps) o) (hps : .metrics ∉ ps) : Emits (Touches []) o := fun e he => by
  have hpart := h e he
  cases e with
  | measured m => exact absurd hpart hps
  | _ => trivial

/-! ### Connections -/

namespace Peer.Mesh

variable (m : Mesh) (b : Switchboard)

theorem touches_create (user : UserId) (initiator : Bool) (streams : List Stream) :
    Emits (Touches [.counter .peersCreated]) (m.create b user initiator streams) := by
  unfold create Switchboard.dial
  repeat' split
  · exact .pure _
  · exact .bind (.bind (.emit trivial) (.pure _)) (.pure _)
  · exact .bind (.bind (.emit trivial) (.pure _))
      (.bind (.emit (List.mem_singleton_self _)) (.pure _))

theorem touches_signal (user : UserId) (s : Signal) :
    Emits (Touches [.counter (.signalsDropped .unknownPeer)]) (m.signal b user s) := by
  unfold signal
  split
  · exact .bind (.emit (List.mem_singleton_self _)) (.pure _)
  · exact .bind (.bind (.emit trivial) (.pure _)) (.pure _)

theorem touches_close (user : UserId) (reason : CloseReason) :
    Emits (Touches [.counter (.peersClosed reason)]) (m.close user reason) := by
  unfold close
  split
  · exact .pure _
  · exact .bind (.emit trivial) (.bind (.emit (List.mem_singleton_self _)) (.pure _))

theorem touches_closeAll (reason : CloseReason) :
    Emits (Touches [.counter (.peersClosed reason)]) (m.closeAll reason) :=
  .bind (.forEach (fun m user _ => (m.touches_close user reason).map _) _) (.pure _)

theorem touches_tellAll (c : Command) : Emits (Touches []) (m.tellAll b c) :=
  (m.within_tellAll b c).touches (by decide)

end Peer.Mesh

namespace Call

variable (c : Call)

theorem touches_settleCounted (outcome : DialOutcome) (a : Answer) :
    Emits (Touches [.counter (.dials outcome)]) (c.settleCounted outcome a) := by
  unfold settleCounted
  split
  · exact .pure _
  · exact .bind (.emit (List.mem_singleton_self _))
      (((c.within_settleDial a).touches (by decide)).mono fun _ he => he.widen nofun)

theorem touches_dropped : Emits (Touches [.counter (.signalsDropped .notJoined)])
    (count (.signalsDropped .notJoined)) :=
  .emit (List.mem_singleton_self _)

/-! ### Steps -/

/-- If the gauges show how many streams and legs there are in a call, then they do so after a step,
which counts `n` tracks as withdrawn. -/
structure Measures (c : Call) (n : Nat) (o : Outcome Call) : Prop where
  streams : (Effect.settings .remoteStreams o.effects).getLastD c.gallery.streamCount =
    o.value.gallery.streamCount
  legs : (Effect.settings .recordingLegs o.effects).getLastD c.recorder.legs.length =
    o.value.recorder.legs.length
  withdrawn : (Effect.counts o.effects).count .tracksWithdrawn = n

namespace Measures

variable {c : Call} {α : Type} {m n : Nat} {ms : List Metric}

/-- The streams and the legs stay, and neither gauge nor the counter is touched. -/
theorem quiet {o : Outcome Call} (h : Emits (Touches ms) o)
    (hms : .gauge .remoteStreams ∉ ms ∧ .gauge .recordingLegs ∉ ms ∧
      .counter .tracksWithdrawn ∉ ms)
    (husers : o.value.gallery.users = c.gallery.users)
    (hlegs : o.value.recorder.legs = c.recorder.legs) : Measures c 0 o where
  streams := by
    unfold Gallery.streamCount
    rw [Effect.settings_eq_nil h hms.1, husers]
    rfl
  legs := by
    rw [Effect.settings_eq_nil h hms.2.1, hlegs]
    rfl
  withdrawn := Effect.count_eq_zero h hms.2.2

/-- The streams and the legs stay, and no metric is touched. -/
theorem silent {o : Outcome Call} (h : Emits (Touches []) o)
    (husers : o.value.gallery.users = c.gallery.users)
    (hlegs : o.value.recorder.legs = c.recorder.legs) : Measures c 0 o :=
  quiet h ⟨List.not_mem_nil, List.not_mem_nil, List.not_mem_nil⟩ husers hlegs

theorem pure (c : Call) : Measures c 0 (pure c) := silent (.pure _) rfl rfl

/-- It makes no difference if a call first changes in other things. -/
theorem of_eq {c' : Call} {o : Outcome Call} (h : Measures c' n o)
    (hgallery : c'.gallery = c.gallery) (hrecorder : c'.recorder = c.recorder) :
    Measures c n o where
  streams := hgallery ▸ h.streams
  legs := hrecorder ▸ h.legs
  withdrawn := h.withdrawn

/-- Two steps withdraw what either of them does. -/
theorem add {o : Outcome Call} {f : Call → Outcome Call} (h : Measures c m o)
    (hf : Measures o.value n (f o.value)) : Measures c (m + n) (o >>= f) where
  streams := by
    rw [effects_bind, Effect.settings_append, getLastD_append, h.streams]
    exact hf.streams
  legs := by
    rw [effects_bind, Effect.settings_append, getLastD_append, h.legs]
    exact hf.legs
  withdrawn := by
    rw [effects_bind, Effect.counts_append, List.count_append, h.withdrawn, hf.withdrawn]

theorem bind {o : Outcome Call} {f : Call → Outcome Call} (h : Measures c 0 o)
    (hf : Measures o.value n (f o.value)) : Measures c n (o >>= f) :=
  Nat.zero_add n ▸ h.add hf

/-- The step comes after something that touches neither gauge nor the counter. -/
theorem after {o : Outcome α} {f : α → Outcome Call} (h : Emits (Touches ms) o)
    (hms : .gauge .remoteStreams ∉ ms ∧ .gauge .recordingLegs ∉ ms ∧
      .counter .tracksWithdrawn ∉ ms)
    (hf : Measures c n (f o.value)) : Measures c n (o >>= f) :=
  -- what comes first is a step of the call that changes nothing
  have hfirst : Measures c 0 ⟨c, o.effects⟩ := quiet h hms rfl rfl
  hfirst.bind (f := fun _ => f o.value) hf

theorem forEach {ι : Type} {step : Call → ι → Outcome Call}
    (h : ∀ c i, Measures c 0 (step c i)) (is : List ι) (c : Call) :
    Measures c 0 (forEach step is c) := by
  induction is generalizing c with
  | nil => exact pure c
  | cons i is ih => exact (h c i).bind (ih _)

/-- The gallery changes, and then something is done that touches no metric. -/
theorem change (change : Gallery.Change) {f : Gallery → Outcome Call}
    (hf : Emits (Touches []) (f (c.gallery.apply change).value))
    (hgallery : (f (c.gallery.apply change).value).value.gallery = (c.gallery.apply change).value)
    (hlegs : (f (c.gallery.apply change).value).value.recorder.legs = c.recorder.legs) :
    Measures c ((Effect.counts (c.gallery.apply change).effects).count .tracksWithdrawn)
      (c.gallery.apply change >>= f) := by
  have hgauged := c.gallery.gauged_apply change
  have htouches := c.gallery.touches_apply change
  constructor
  · rw [effects_bind, Effect.settings_append, getLastD_append, hgauged,
      Effect.settings_eq_nil hf List.not_mem_nil, value_bind, hgallery]
    rfl
  · rw [effects_bind, Effect.settings_append, Effect.settings_eq_nil htouches (by decide),
      Effect.settings_eq_nil hf List.not_mem_nil, value_bind, hlegs]
    rfl
  · rw [effects_bind, Effect.counts_append, List.count_append,
      Effect.count_eq_zero hf List.not_mem_nil, Nat.add_zero]

/-- A change that is no batch withdraws nothing. -/
theorem change_zero (change : Gallery.Change)
    (hchange : ∀ sender batch, change ≠ .announce sender batch) {f : Gallery → Outcome Call}
    (hf : Emits (Touches []) (f (c.gallery.apply change).value))
    (hgallery : (f (c.gallery.apply change).value).value.gallery = (c.gallery.apply change).value)
    (hlegs : (f (c.gallery.apply change).value).value.recorder.legs = c.recorder.legs) :
    Measures c 0 (c.gallery.apply change >>= f) :=
  c.gallery.count_withdrawn_apply hchange ▸ Measures.change change hf hgallery hlegs

/-- The recorder takes a step, and then something is done that touches no metric. -/
theorem record {o : Outcome α} {f : α → Outcome Call} {r : Recorder}
    (h : Recorder.Gauged c.recorder.legs.length o.effects r)
    (hf : Emits (Touches []) (f o.value))
    (husers : (f o.value).value.gallery.users = c.gallery.users)
    (hrecorder : (f o.value).value.recorder = r) : Measures c 0 (o >>= f) := by
  constructor
  · unfold Gallery.streamCount
    rw [effects_bind, Effect.settings_append, Effect.settings_eq_nil h.touches (by decide),
      Effect.settings_eq_nil hf List.not_mem_nil, value_bind, husers]
    rfl
  · rw [effects_bind, Effect.settings_append, getLastD_append, h.level,
      Effect.settings_eq_nil hf List.not_mem_nil, value_bind, hrecorder]
    rfl
  · rw [effects_bind, Effect.counts_append, List.count_append,
      Effect.count_eq_zero h.touches (by decide), Effect.count_eq_zero hf List.not_mem_nil]

end Measures

/-! ### The recording -/

theorem measures_stopRecording (loud : Bool) : Measures c 0 (c.stopRecording loud) :=
  .record c.recorder.gauged_stop (.bind (.when (.emit trivial) _) (.pure _)) rfl rfl

theorem measures_applyRecording (recording : Bool) (url : Option String) :
    Measures c 0 (c.applyRecording recording url) := by
  unfold applyRecording
  split
  · exact .record (c.recorder.gauged_start _ _ _ _ _) (.bind (.when (.emit trivial) _) (.pure _))
      rfl rfl
  · exact c.measures_stopRecording true

theorem measures_onRecordingReport (r : Report) : Measures c 0 (c.onRecordingReport r) :=
  .record (c.recorder.gauged_report r) (.bind (.when (.emit trivial) _) (.pure _)) rfl rfl

/-! ### The relay -/

theorem measures_settleDial (a : Answer) : Measures c 0 (c.settleDial a) :=
  .quiet ((c.within_settleDial a).touches (by decide)) (by simp)
    (by rw [value_settleDial]) (by rw [value_settleDial])

theorem measures_settleCounted (outcome : DialOutcome) (a : Answer) :
    Measures c 0 (c.settleCounted outcome a) :=
  .quiet (c.touches_settleCounted outcome a) (by simp)
    (by rw [value_settleCounted]) (by rw [value_settleCounted])

theorem measures_connectTo (initiator : Bool) (user : UserId) :
    Measures c 0 (c.connectTo initiator user) :=
  .after (c.mesh.touches_create _ _ _ _) (by simp)
    (.silent (.bind ((within_tellRefusal _).touches (by decide)) (.pure _)) rfl rfl)

theorem measures_onRoster (r : Roster) : Measures c 0 (c.onRoster r) := by
  let update := (c.membership.meet r c.mesh.contains).2
  let c' : Call := { c with
    membership := { c.membership with nicknames := r.nicknames }
    isInitiator := some update.isInitiator }
  have hconnected : Measures c' 0
      (forEach (fun c user => connectTo c update.isInitiator user) update.newPeers c') :=
    .forEach (fun c user => c.measures_connectTo _ user) _ c'
  exact .after ((within_notify _ _).touches (by decide)) (by simp) (.of_eq
    (hconnected.bind ((measures_settleCounted _ _ _).bind (measures_applyRecording _ _ _)))
    rfl rfl)

/-- The gallery changes, and that is published. -/
theorem measures_change (change : Gallery.Change)
    (hchange : ∀ sender batch, change ≠ .announce sender batch) (f : Gallery → Call)
    (hgallery : ∀ g, (f g).gallery = g) (hrecorder : ∀ g, (f g).recorder = c.recorder) :
    Measures c 0 (c.gallery.apply change >>= fun g =>
      (f g).publishStreams >>= fun _ => pure (f g)) :=
  .change_zero change hchange (.bind (.emit trivial) (.pure _)) (hgallery _)
    (congrArg Recorder.legs (hrecorder _))

/-- A batch withdraws the tracks that it leaves out. -/
theorem measures_announcements (sender : UserId) (batch : List Announcement) :
    Measures c (c.gallery.leftOut sender batch).length
      (c.onAdmitted (.announcements sender batch)) := by
  rw [← Gallery.length_undescribed, ← Gallery.count_withdrawn_announce]
  exact .change (.announce sender batch) (.bind (.emit trivial) (.pure _)) rfl rfl

theorem measures_onAdmitted {m : Incoming} (hm : ∀ sender batch, m ≠ .announcements sender batch) :
    Measures c 0 (c.onAdmitted m) := by
  cases m with
  | roster r => exact c.measures_onRoster r
  | signal sender s =>
    exact .after (c.mesh.touches_signal _ _ _) (by simp)
      (.silent (.pure _) rfl rfl)
  | announcements sender batch => exact absurd rfl (hm sender batch)
  | hangUp user =>
    exact c.measures_change (.unassociate user) nofun
      (fun g => { c with membership := c.membership.dropName user, gallery := g })
      (fun _ => rfl) fun _ => rfl
  | roomCreated creator =>
    have hready (ready : Option Outgoing) : Emits (Touches []) (forSome ready c.send) :=
      .forSome (fun m => (c.within_send m).touches (by decide)) ready
    exact .silent (.bind (hready _) (.pure _)) rfl rfl
  | recordOutcome r =>
    rw [onAdmitted]
    split
    · exact c.measures_applyRecording _ _
    · exact .pure c

/-- The slots from which an input withdraws the tracks: those that a batch leaves out, if the call
has joined. -/
def withdrawn : Input → List Slot
  | .relay (.message (.announcements sender batch)) =>
    if c.membership.active then c.gallery.leftOut sender batch else []
  | _ => []

theorem withdrawn_eq_nil {m : Incoming} (hm : ∀ sender batch, m ≠ .announcements sender batch) :
    c.withdrawn (.relay (.message m)) = [] := by
  cases m with
  | announcements sender batch => exact absurd rfl (hm sender batch)
  | _ => rfl

theorem measures_onMessage (m : Incoming) :
    Measures c (c.withdrawn (.relay (.message m))).length (c.onMessage m) := by
  have hdropped : Measures c 0 (count (.signalsDropped .notJoined) >>= fun _ => pure c) :=
    .after touches_dropped (by simp) (.pure c)
  unfold onMessage
  by_cases hm : ∃ sender batch, m = .announcements sender batch
  · obtain ⟨sender, batch, rfl⟩ := hm
    change Measures c (if c.membership.active = true then _ else []).length
      (if c.membership.active = true then _ else _)
    split
    · exact c.measures_announcements sender batch
    · exact hdropped
  · simp only [not_exists] at hm
    rw [c.withdrawn_eq_nil hm]
    split
    · exact c.measures_onAdmitted hm
    · exact hdropped

theorem measures_onRelay (e : Relay.Event) :
    Measures c (c.withdrawn (.relay e)).length (c.onRelay e) := by
  cases e with
  | connected =>
    exact .silent (.bind (.emit trivial) (.bind ((within_send _ _).touches (by decide)) (.pure _)))
      rfl rfl
  | disconnected =>
    rw [onRelay]
    split
    · exact .silent (.bind (.emit trivial) (.pure _)) rfl rfl
    · exact .pure c
  | message m => exact c.measures_onMessage m

/-! ### Connections -/

theorem measures_tearDown (user : UserId) (reason : CloseReason) :
    Measures c 0 (c.tearDown user reason) :=
  .after (c.mesh.touches_close user reason) (by simp)
    (c.measures_change (.removePeer user) nofun
      (fun g => { c with mesh := (c.mesh.close user reason).value.1, gallery := g })
      (fun _ => rfl) fun _ => rfl)

theorem measures_onTrack (user : UserId) (t : Track) (stream : StreamId) (mid : Mid) :
    Measures c 0 (c.onTrack user t stream mid) :=
  c.measures_change (.addTrack ⟨user, mid⟩ t stream) nofun
    (fun g => { c with gallery := g }) (fun _ => rfl) fun _ => rfl

theorem measures_onMuted (user : UserId) (id : TrackId) : Measures c 0 (c.onMuted user id) := by
  unfold onMuted
  split
  · exact c.measures_change (.removeTrack id) nofun
      (fun g => { c with gallery := g }) (fun _ => rfl) fun _ => rfl
  · exact .pure c

theorem measures_onPeerReport (user : UserId) (r : Report) :
    Measures c 0 (c.onPeerReport user r) := by
  cases r with
  | signal s =>
    exact .silent (.bind ((c.within_send _).touches (by decide)) (.pure _)) rfl rfl
  | track t stream mid => exact c.measures_onTrack user t stream mid
  | muted id => exact c.measures_onMuted user id
  | unmuted t stream mid => exact c.measures_onTrack user t stream mid
  | data bytes => exact .silent (.bind (.emit trivial) (.pure _)) rfl rfl
  | failed e => exact c.measures_tearDown user _
  | closed => exact c.measures_tearDown user _
  | _ => exact .pure c

theorem measures_onReport (key : Key) (r : Report) : Measures c 0 (c.onReport key r) := by
  cases key with
  | recording => exact c.measures_onRecordingReport r
  | participant user =>
    unfold onReport
    dsimp only
    split
    · exact .pure c
    · exact .of_eq (measures_onPeerReport _ user r) rfl rfl

theorem measures_onReply (session : Nat) (result : Except Recorder.JoinError Signal) :
    Measures c 0 (c.onReply session result) :=
  .silent (.bind ((Recorder.within_reply _ _ _ _).touches (by decide))
    (.bind (.forSome (fun _ => .emit trivial) _) (.pure _))) rfl rfl

/-! ### The participant -/

theorem measures_release (loud : Bool) : Measures c 0 (c.release loud) :=
  .after (c.mesh.touches_closeAll .hangUp) (by simp) (.of_eq
    ((measures_stopRecording _ loud).bind (.change_zero .reset nofun (.pure _) rfl rfl)) rfl rfl)

theorem measures_hangUp : Measures c 0 c.hangUp := by
  refine .after ((c.within_send _).touches (by decide)) (by simp) ?_
  refine .of_eq ((measures_settleDial _ _).bind ((measures_release _ true).bind ?_)) rfl rfl
  exact .silent (.bind (.emit trivial) (.pure _)) rfl rfl

theorem measures_dial (now ticket : Nat) (nickname : String) :
    Measures c 0 (c.dial now ticket nickname) :=
  (c.measures_settleCounted _ _).bind
    (.silent (.bind ((within_send _ _).touches (by decide)) (.pure _)) rfl rfl)

theorem measures_onDeadline : Measures c 0 c.onDeadline := by
  unfold onDeadline
  split
  · exact .pure c
  · exact .after ((within_notify _ _).touches (by decide)) (by simp)
      (.of_eq (measures_settleCounted _ _ _) rfl rfl)

/-- The recorder follows a stream that comes, and the streams of participants stay. -/
theorem measures_addLocal (type : StreamType) (stream : Stream) :
    Measures c 0 ⟨(c.addLocal type stream).value.1, (c.addLocal type stream).effects⟩ := by
  have hbefore : Emits (Touches []) (forSome (c.gallery.locals.get? type) fun before =>
      c.mesh.tellAll c.board (.removeStream before.stream)) :=
    .forSome (fun _ => c.mesh.touches_tellAll _ _) _
  let c' : Call := (c.addLocal type stream).value.1
  have hfollow : Measures c 0 (c.recorder.follow c.board
      (c.gallery.addLocal c.recorder.active type stream) >>= fun _ =>
        c'.mesh.tellAll c'.board (.addStream stream) >>= fun _ =>
          c'.publishStreams >>= fun _ => pure c') :=
    .record (c.recorder.gauged_follow c.board (c.gallery.ofCaptures_addLocal _ type stream))
      (.bind (c'.mesh.touches_tellAll _ _) (.bind (.emit trivial) (.pure _)))
      (Gallery.users_removeLocal _ c.gallery type) rfl
  exact .after (f := fun _ => _) hbefore (by simp) hfollow

/-- The recorder follows a stream that goes, and the streams of participants stay. -/
theorem measures_removeLocal (type : StreamType) :
    Measures c 0 ⟨(c.removeLocal type).value.1, (c.removeLocal type).effects⟩ := by
  let c' : Call := (c.removeLocal type).value.1
  have hgone (m : LocalStream) : Emits (Touches [])
      (c'.mesh.tellAll c'.board (.removeStream m.stream) >>= fun _ => c'.publishStreams) :=
    .bind (c'.mesh.touches_tellAll _ _) (.emit trivial)
  have hfollow : Measures c 0 (c.recorder.follow c.board
      (c.gallery.removeLocal c.recorder.active type) >>= fun p =>
        forSome p.2.2 (fun m => c'.mesh.tellAll c'.board (.removeStream m.stream) >>= fun _ =>
          c'.publishStreams) >>= fun _ => pure c') :=
    .record (c.recorder.gauged_follow c.board (c.gallery.ofCaptures_removeLocal _ type))
      (.bind (.forSome hgone _) (.pure _)) (Gallery.users_removeLocal _ c.gallery type) rfl
  exact hfollow

/-- What the participant asks for is answered when it is done. -/
theorem measures_answer {α : Type} {o : Outcome (Call × α)}
    (h : Measures c 0 ⟨o.value.1, o.effects⟩) (ticket : Nat) (answer : α → Answer) :
    Measures c 0 (o >>= fun p =>
      emit (.answered ticket (answer p.2)) >>= fun _ => pure p.1) :=
  h.bind (f := fun c => emit (.answered ticket (answer o.value.2)) >>= fun _ => pure c)
    (.silent (.bind (.emit trivial) (.pure _)) rfl rfl)

theorem measures_onIntent (now ticket : Nat) (i : Intent) :
    Measures c 0 (c.onIntent now ticket i) := by
  cases i with
  | dial nickname => exact c.measures_dial now ticket nickname
  | hangUp =>
    exact c.measures_hangUp.bind (.silent (.bind (.emit trivial) (.pure _)) rfl rfl)
  | toggleRecord =>
    exact .after ((c.within_send _).touches (by decide)) (by simp)
      (.silent (.bind (.emit trivial) (.pure _)) rfl rfl)
  | addLocal type stream =>
    exact c.measures_answer (c.measures_addLocal type stream) ticket .installed
  | removeLocal type => exact c.measures_answer (c.measures_removeLocal type) ticket .removed
  | trackChanged type t =>
    exact .silent (.bind (.emit trivial) (.bind (.emit trivial) (.pure _)))
      (Gallery.users_setMirror c.gallery type t) rfl
  | getStatus => exact .silent (.bind (.emit trivial) (.pure _)) rfl rfl

/-! ### All inputs -/

theorem measures_react (now : Nat) (i : Input) :
    Measures c (c.withdrawn i).length (c.react now i) := by
  cases i with
  | relay e => exact c.measures_onRelay e
  | report n key r => exact c.measures_onReport key r
  | reply session result => exact c.measures_onReply session result
  | intent ticket i => exact c.measures_onIntent now ticket i
  | deadline => exact c.measures_onDeadline

/-- Every moment leaves the gauges right, and counts the tracks that it withdraws. -/
theorem measures_meet (m : Moment) : Measures c (c.withdrawn m.input).length (c.meet m) :=
  .of_eq (measures_react { c with board := { c.board with refusals := m.refusals } } m.now m.input)
    rfl rfl

/-- A history leaves the gauges right, and counts the tracks that it withdraws. -/
theorem measures_run (moments : List Moment) :
    Measures c (c.gather withdrawn moments).length (c.run moments) := by
  induction moments generalizing c with
  | nil => exact .pure c
  | cons m ms ih =>
    rw [gather, List.length_append]
    exact (c.measures_meet m).add (ih _)

/-- In every history, the gauges show how many streams the participants have in all, and how many
legs the session has, if there is one. The counter tells from how many slots batches withdrew the
tracks: those of the sender that were attributed, and that the batch left out. -/
theorem gauges_run (s : Settings) (room : RoomId) (user : UserId) (urls : UrlSource)
    (moments : List Moment) :
    let o := (fresh s room user urls .none).run moments
    let r := (Footprint.none.noteAll o.effects).readings
    r.level .remoteStreams = (o.value.gallery.users.values.flatMap Shown.streams).length ∧
    r.level .recordingLegs = (o.value.recorder.session.elim 0 fun s => s.legs.size) ∧
    r.total .tracksWithdrawn =
      ((fresh s room user urls .none).gather withdrawn moments).length := by
  intro o r
  obtain ⟨hstreams, hlegs, hwithdrawn⟩ := measures_run (fresh s room user urls .none) moments
  refine ⟨?_, ?_, ?_⟩
  · rw [Footprint.level_noteAll, ← Gallery.streamCount_eq]
    exact hstreams
  · rw [Footprint.level_noteAll, ← Recorder.length_legs]
    exact hlegs
  · rw [Footprint.total_noteAll, hwithdrawn]
    exact Nat.zero_add _

end Call

end VideoCall

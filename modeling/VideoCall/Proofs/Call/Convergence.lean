import VideoCall.Proofs.Call.Legs
import VideoCall.Proofs.Call.Rosters

/-!
# The recording follows the relay

The relay names the state of the recording in two ways: every roster says it, and so does what
became of a wish to record. It does not matter which of the two it was and what the call did before.
If there should be no recording, there is none. If there should be one, a recording that there is
goes on as it is, and otherwise one begins, unless the media stack refuses the connection. A
participant who joins late ends up where those are who were there from the start, and hearing the
same again changes nothing.

## Main definitions

* `Call.Input.Rules` : an input names the state of the recording, and it counts.
* `Call.nextSession` : the session that begins if there is none.
* `Call.Converges` : what becomes of the recording.

## Main results

* `Call.applyRecording_of_active`, `Call.applyRecording_of_accepted`, … : all that comes of a state
  that is named.
* `Call.exists_prepares_meet` : what a roster does before it has no part in the recording.
* `Call.converges_run` : the recording follows the relay in every history.
-/

namespace VideoCall.Call

open Outcome Peer Wire Media

variable {c : Call} {s : Recorder.Session} {recording : Bool} {url : String}

/-! ### States of the recording -/

/-- The session that begins if there is none. -/
def nextSession (c : Call) (url : Option String) : Recorder.Session where
  number := c.recorder.started + 1
  room := c.membership.room
  user := c.membership.user
  base := url.getD c.recorder.defaultBase
  line := c.board.opened
  legs := .ofList (c.gallery.locals.values.map fun m => (m.stream.id, m.stream))
  offered := false

theorem applyRecording_of_active (hs : c.recorder.session = some s) (url : Option String) :
    c.applyRecording true url = pure c := by
  change c.startRecording url = _
  unfold startRecording Recorder.start
  rw [hs]
  rfl

theorem applyRecording_of_refused (hnone : c.recorder.session = none)
    (hrefused : c.board.refusals.opening .recording = true) (url : Option String) :
    c.applyRecording true url = ⟨c, [.line (.refused .recording
      ⟨true, c.board.iceServers, false, (c.nextSession url).legs.values⟩)]⟩ := by
  change c.startRecording url = _
  unfold startRecording Recorder.start Switchboard.dial
  rw [hnone, hrefused]
  rfl

theorem applyRecording_of_accepted (hnone : c.recorder.session = none)
    (haccepted : c.board.refusals.opening .recording = false) (url : Option String) :
    c.applyRecording true url = ⟨{ c with
        recorder := { c.recorder with
          session := some (c.nextSession url)
          started := c.recorder.started + 1 }
        board := { c.board with opened := c.board.opened + 1 } },
      [.line (.opened c.board.opened .recording
          ⟨true, c.board.iceServers, false, (c.nextSession url).legs.values⟩),
        .measured (.set .recordingLegs (c.nextSession url).legs.size),
        .published (.recording true)]⟩ := by
  change c.startRecording url = _
  unfold startRecording Recorder.start Switchboard.dial
  rw [hnone, haccepted]
  rfl

theorem applyRecording_false_of_none (hnone : c.recorder.session = none) (url : Option String) :
    c.applyRecording false url = pure c := by
  change c.stopRecording true = _
  unfold stopRecording Recorder.stop
  rw [hnone]
  rfl

theorem applyRecording_false_of_active (hs : c.recorder.session = some s) (url : Option String) :
    c.applyRecording false url = ⟨{ c with recorder := { c.recorder with session := none } },
      [.line (.destroyed s.line), .measured (.set .recordingLegs 0),
        .published (.recording false)]⟩ := by
  change c.stopRecording true = _
  unfold stopRecording Recorder.stop
  rw [hs]
  rfl

/-- A state that is reached already is left alone. -/
theorem applyRecording_of_reached (h : c.recorder.active = recording) (url : Option String) :
    c.applyRecording recording url = pure c := by
  cases hs : c.recorder.session with
  | none =>
    obtain rfl : recording = false := by rw [← h, Recorder.active, hs]; rfl
    exact applyRecording_false_of_none hs url
  | some s =>
    obtain rfl : recording = true := by rw [← h, Recorder.active, hs]; rfl
    exact applyRecording_of_active hs url

/-- A state that is named is reached, unless a connection is refused. -/
theorem active_applyRecording (url : Option String) (h : recording = true →
      c.recorder.session = none → c.board.refusals.opening .recording = false) :
    (c.applyRecording recording url).value.recorder.active = recording := by
  cases hs : c.recorder.session with
  | none =>
    cases recording with
    | false =>
      rw [applyRecording_false_of_none hs, value_pure, Recorder.active, hs]
      rfl
    | true =>
      rw [applyRecording_of_accepted hs (h rfl hs)]
      rfl
  | some s =>
    cases recording with
    | false =>
      rw [applyRecording_false_of_active hs]
      rfl
    | true =>
      rw [applyRecording_of_active hs, value_pure, Recorder.active, hs]
      rfl

/-! ### Who names the state of the recording -/

/-- An input names the state of the recording, and it counts: a roster while the participant is
ready, or the outcome of a wish to record that was granted. -/
inductive Input.Rules (c : Call) : Input → Bool → String → Prop
  | roster (r : Roster) (h : c.membership.active = true) :
      Rules c (.relay (.message (.roster r))) r.recording r.recordUrl
  | outcome (r : RecordOutcome) (h : r.successful = true) :
      Rules c (.relay (.message (.recordOutcome r))) r.recording r.url

/-- What is done before the recording follows has no part in it, and is no concern of connections
that are there. -/
structure Prepares (c : Call) (refusals : Refusals) (o : Outcome Call) : Prop where
  recorder : o.value.recorder = c.recorder
  gallery : o.value.gallery = c.gallery
  refusals : o.value.board.refusals = refusals
  destroyed : Effect.destroyed o.effects = []
  unconcerned : ∀ n < c.board.opened, Emits (fun e => ¬ e.Concerns n) o

/-- Connections and a dial that is done have no part in the recording. -/
theorem exists_prepares_onRoster (c : Call) (r : Roster) : ∃ o,
    c.onRoster r = (o >>= fun c => c.applyRecording r.recording (nonempty r.recordUrl)) ∧
      Prepares c c.board.refusals o := by
  have hopens := c.opens_newcomers r
  obtain ⟨mesh, board, hvalue⟩ := (c.informed r).exists_value_connectEach
    (r.initiator = c.membership.user) (c.newcomers r)
  let connected := forEach (fun c' u => connectTo c' (r.initiator = c.membership.user) u)
    (c.newcomers r) (c.informed r)
  let o := notify .info ("Connected users: " ++ toString r.nicknames.size) >>= fun _ =>
    connected >>= fun c' => c'.settleCounted .joined .done
  have hrecorder := congrArg Call.recorder hvalue
  have hgallery := congrArg Call.gallery hvalue
  have hsettled : o.value = { connected.value with pending := none } :=
    value_settleCounted _ _ _
  have hwithin : Emits (Effect.Within [.words, .opening, .command, .metrics, .answer]) o := by
    refine ((within_notify _ _).widen (by decide)).bind (Emits.bind ?_ ?_)
    · exact (Emits.forEach (fun c u _ => c.within_connectTo _ u) _).widen (by decide)
    · exact (within_settleCounted _ _ _).widen (by decide)
  refine ⟨o, ?_, ?_, ?_, ?_, Effect.destroyed_eq_nil hwithin (by decide), fun n hn => ?_⟩
  · rw [onRoster_eq]
    exact congrArg (Outcome.mk _) (by simp [o, connected])
  · rw [hsettled]
    exact hrecorder
  · rw [hsettled]
    exact hgallery
  · rw [hsettled]
    exact hopens.refusals
  · exact .bind (.emit not_false) (.bind (hopens.unconcerned hn)
      ((within_settleCounted _ _ _).mono fun _ he =>
        he.not_concerns (by decide) (by decide) (by decide) n))

/-- Whoever names the state of the recording, what comes of it is the same. -/
theorem exists_prepares_meet {m : Moment} (h : m.input.Rules c recording url) : ∃ o,
    c.meet m = (o >>= fun c => c.applyRecording recording (nonempty url)) ∧
      Prepares c m.refusals o := by
  obtain ⟨now, refusals, i⟩ := m
  let c' : Call := { c with board := { c.board with refusals := refusals } }
  cases h with
  | roster r hactive =>
    have hmeet : c.meet ⟨now, refusals, .relay (.message (.roster r))⟩ = c'.onRoster r :=
      if_pos hactive
    obtain ⟨o, ho, hprepares⟩ := c'.exists_prepares_onRoster r
    exact ⟨o, hmeet.trans ho, hprepares.recorder, hprepares.gallery, hprepares.refusals,
      hprepares.destroyed, hprepares.unconcerned⟩
  | outcome r hsuccessful =>
    exact ⟨pure c', if_pos hsuccessful, rfl, rfl, rfl, rfl, fun n _ => .pure _⟩

/-- The outcome of a wish to record that was not granted changes nothing, but for what the media
stack refuses. -/
theorem meet_of_unsuccessful (c : Call) {m : Moment} {r : RecordOutcome}
    (hm : m.input = .relay (.message (.recordOutcome r))) (hr : r.successful = false) :
    c.meet m = pure { c with board := { c.board with refusals := m.refusals } } := by
  unfold meet
  rw [hm]
  exact if_neg (hr ▸ Bool.false_ne_true)

/-! ### The base URL -/

theorem defaultBase_applyRecording (c : Call) (recording : Bool) (url : Option String) :
    (c.applyRecording recording url).value.recorder.defaultBase = c.recorder.defaultBase := by
  unfold applyRecording
  split
  · unfold startRecording
    rcases c.recorder.start_cases c.board c.membership.room c.membership.user url
      c.gallery.locals.values with ⟨es, hstart, -⟩ | ⟨s, options, -, -, -, hstart⟩
    · rw [hstart]
      rfl
    · rw [hstart]
      rfl
  · unfold stopRecording Recorder.stop
    split <;> rfl

theorem defaultBase_report (r : Recorder) (report : Report) :
    (r.report report).value.defaultBase = r.defaultBase := by
  have hstop : r.stop.value.1.defaultBase = r.defaultBase := by
    unfold Recorder.stop
    split <;> rfl
  cases report with
  | signal s =>
    change (r.offer s).value.defaultBase = _
    unfold Recorder.offer
    split
    · rfl
    · split <;> rfl
  | failed e => exact hstop
  | closed => exact hstop
  | _ => rfl

theorem Handled.defaultBase {r : Recorder} (h : Handled c r) :
    r.defaultBase = c.recorder.defaultBase := by
  cases h with
  | rest => rfl
  | ruled hrecorder _ recording url =>
    exact (defaultBase_applyRecording _ recording url).trans (congrArg _ hrecorder)
  | reported r => exact defaultBase_report _ r

theorem defaultBase_hangUp (c : Call) :
    c.hangUp.value.recorder.defaultBase = c.recorder.defaultBase := by
  obtain ⟨c', hc', hvalue, -⟩ := c.exists_release_hangUp
  rw [hvalue]
  change (c'.release true).value.recorder.defaultBase = _
  rw [recorder_release, hc']

/-- No moment changes where the recording service is, where the relay names none. -/
theorem defaultBase_meet (c : Call) (m : Moment) :
    (c.meet m).value.recorder.defaultBase = c.recorder.defaultBase := by
  cases hm : m.input.captures with
  | false => exact (handled_react _ m.now hm).defaultBase
  | true =>
    rcases Input.captures_cases hm with ⟨ticket, type, stream, hi⟩ | ⟨ticket, type, hi⟩ |
      ⟨ticket, hi⟩
    · rw [(follows_addLocal hi).recorder]
      exact Recorder.follow_keeps (fun _ _ _ _ => rfl) _ _ _
    · rw [(follows_removeLocal hi).recorder]
      exact Recorder.follow_keeps (fun _ _ _ _ => rfl) _ _ _
    · unfold meet
      rw [hi]
      exact defaultBase_hangUp _

theorem defaultBase_run (c : Call) (moments : List Moment) :
    (c.run moments).value.recorder.defaultBase = c.recorder.defaultBase :=
  forEach_induction (p := fun c' : Call => c'.recorder.defaultBase = c.recorder.defaultBase) rfl
    fun c' hc' m _ => (c'.defaultBase_meet m).trans hc'

/-! ### Every moment -/

/-- What becomes of the recording if its state is named, and a service by its URL; `base` is where
the service is otherwise. -/
structure Converges (c : Call) (base : String) (m : Moment) (recording : Bool) (url : String)
    (o : Outcome Call) : Prop where
  /-- If there should be no recording, there is none, and the connection of one that there was is
  destroyed. -/
  ended : recording = false → o.value.recorder = { c.recorder with session := none } ∧
    Effect.destroyed o.effects = (c.recorder.session.map Recorder.Session.line).toList
  /-- A recording that should be there and is goes on as it is, and nothing is done to its
  connection. -/
  kept : recording = true → ∀ s, c.recorder.session = some s →
    o.value.recorder = c.recorder ∧ ∀ e ∈ o.effects, ¬ e.Concerns s.line
  /-- One that should be there and is not begins. -/
  begun : recording = true → c.recorder.session = none →
    m.refusals.opening .recording = false → ∃ s,
      o.value.recorder = { c.recorder with
        session := some s
        started := c.recorder.started + 1 } ∧
      s.number = c.recorder.started + 1 ∧ s.base = (if url = "" then base else url) ∧
      (∀ id, id ∈ s.legs.keys ↔ ∃ stream ∈ c.captured, stream.id = id) ∧
      (s.line, .recording) ∈ Effect.opened o.effects
  /-- Nothing becomes of one that is refused. -/
  refused : recording = true → c.recorder.session = none →
    m.refusals.opening .recording = true → o.value.recorder = c.recorder
  /-- Naming the same again changes nothing, unless the connection was refused. -/
  steady : (recording = true → c.recorder.session = none →
      m.refusals.opening .recording = false) →
    ∀ m' : Moment, m'.input.Rules o.value recording url →
      (o.value.meet m').value.recorder = o.value.recorder

theorem begun_applyRecording (hnone : c.recorder.session = none)
    (haccepted : c.board.refusals.opening .recording = false) (url : String) : ∃ s,
      (c.applyRecording true (nonempty url)).value.recorder = { c.recorder with
        session := some s
        started := c.recorder.started + 1 } ∧
      s.number = c.recorder.started + 1 ∧
      s.base = (if url = "" then c.recorder.defaultBase else url) ∧
      (∀ id, id ∈ s.legs.keys ↔ ∃ stream ∈ c.captured, stream.id = id) ∧
      (s.line, .recording) ∈ Effect.opened (c.applyRecording true (nonempty url)).effects := by
  rw [applyRecording_of_accepted hnone haccepted]
  refine ⟨c.nextSession (nonempty url), rfl, rfl, ?_, fun id => ?_, List.mem_cons_self⟩
  · change (nonempty url).getD c.recorder.defaultBase = _
    unfold nonempty
    split <;> rfl
  · rw [Table.mem_keys_iff, ← Option.isSome_iff_exists]
    exact Recorder.contains_ofList_iff _ id

theorem ended_applyRecording (c : Call) (url : Option String) :
    (c.applyRecording false url).value.recorder = { c.recorder with session := none } ∧
      Effect.destroyed (c.applyRecording false url).effects =
        (c.recorder.session.map Recorder.Session.line).toList := by
  cases hs : c.recorder.session with
  | none =>
    rw [applyRecording_false_of_none hs]
    exact ⟨by rw [value_pure, ← hs], rfl⟩
  | some s =>
    rw [applyRecording_false_of_active hs]
    exact ⟨rfl, rfl⟩

/-- Naming a state that is reached changes nothing. -/
theorem recorder_meet_of_reached (h : c.recorder.active = recording) {m : Moment}
    (hm : m.input.Rules c recording url) : (c.meet m).value.recorder = c.recorder := by
  obtain ⟨o, ho, hprepares⟩ := exists_prepares_meet hm
  have hreached : o.value.recorder.active = recording := by rw [hprepares.recorder, h]
  rw [ho, value_bind, applyRecording_of_reached hreached, value_pure, hprepares.recorder]

/-- What becomes of the recording in a state in which the wiring of the call is sound. -/
theorem converges_meet {es : List Effect} (hw : Wired c es) {m : Moment}
    (h : m.input.Rules c recording url) :
    Converges c c.recorder.defaultBase m recording url (c.meet m) := by
  obtain ⟨o, ho, hprepares⟩ := exists_prepares_meet h
  have hsession : o.value.recorder.session = c.recorder.session := by rw [hprepares.recorder]
  have hopening : o.value.board.refusals.opening .recording = m.refusals.opening .recording := by
    rw [hprepares.refusals]
  have hcaptured : o.value.captured = c.captured := by
    unfold captured
    rw [hprepares.gallery]
  have hsteady : (c.meet m).value.recorder.active = recording → ∀ m' : Moment,
      m'.input.Rules (c.meet m).value recording url →
        ((c.meet m).value.meet m').value.recorder = (c.meet m).value.recorder :=
    fun hactive _ hm' => recorder_meet_of_reached hactive hm'
  rw [ho] at hsteady ⊢
  constructor
  case ended =>
    rintro rfl
    obtain ⟨hvalue, hdestroyed⟩ := ended_applyRecording o.value (nonempty url)
    refine ⟨hvalue.trans (by rw [hprepares.recorder]), ?_⟩
    rw [effects_bind, Effect.destroyed_append, hprepares.destroyed, hdestroyed, hsession]
    rfl
  case kept =>
    rintro rfl s hs
    have hline := hw.session_opened s.line (by simp [wiring, hs])
    have hgoOn := applyRecording_of_active (hsession.trans hs) (nonempty url)
    refine ⟨?_, Emits.bind (hprepares.unconcerned s.line (hw.opened_lt _ _ hline)) ?_⟩
    · rw [value_bind, hgoOn]
      exact hprepares.recorder
    · rw [hgoOn]
      exact .pure _
  case begun =>
    rintro rfl hnone haccepted
    obtain ⟨s, hvalue, hnumber, hbase, hlegs, hopened⟩ :=
      begun_applyRecording (hsession.trans hnone) (hopening.trans haccepted) url
    rw [hprepares.recorder] at hvalue hnumber hbase
    rw [hcaptured] at hlegs
    refine ⟨s, hvalue, hnumber, hbase, hlegs, ?_⟩
    rw [effects_bind, Effect.opened_append]
    exact List.mem_append_right _ hopened
  case refused =>
    rintro rfl hnone hrefused
    rw [value_bind, applyRecording_of_refused (hsession.trans hnone) (hopening.trans hrefused)]
    exact hprepares.recorder
  case steady =>
    intro haccepted m' hm'
    refine hsteady ?_ m' hm'
    refine active_applyRecording _ fun htrue hnone => ?_
    exact hopening.trans (haccepted htrue (hsession.symm.trans hnone))

/-- In every history the recording follows the relay, and a wish to record that was not granted
changes nothing. -/
theorem converges_run (s : Settings) (room : RoomId) (user : UserId) (urls : UrlSource)
    (moments : List Moment) :
    let c := ((fresh s room user urls .none).run moments).value
    (∀ m recording url, m.input.Rules c recording url →
      Converges c s.recordUrl m recording url (c.meet m)) ∧
    ∀ m r, m.input = .relay (.message (.recordOutcome r)) → r.successful = false →
      c.meet m = pure { c with board := { c.board with refusals := m.refusals } } := by
  intro c
  have hbase : c.recorder.defaultBase = s.recordUrl :=
    defaultBase_run (fresh s room user urls .none) moments
  refine ⟨fun m recording url h => ?_, fun m r hm hr => c.meet_of_unsuccessful hm hr⟩
  rw [← hbase]
  exact converges_meet (wired_run s room user urls moments) h

/-- A participant who shows a picture is ready. -/
def equipped : List Moment :=
  [⟨0, .none, .intent 0 (.addLocal .camera ⟨⟨"front"⟩, []⟩)⟩,
    ⟨1, .none, .intent 1 (.dial "me")⟩]

/-- A roster of nobody else, with a recording. -/
def recorded : Roster := ⟨⟨"me"⟩, [⟨"me"⟩], ∅, true, ""⟩

/-- A roster begins a recording at the usual place. That the wish was granted is no news then, and a
wish that was not granted would have changed nothing. -/
theorem converges_run_recorded :
    let c := ((fresh (.ofRelay "ws://relay") ⟨"room"⟩ ⟨"me"⟩ (.fresh fun _ _ => false) .none).run
      equipped).value
    let m : Moment := ⟨2, .none, .relay (.message (.roster recorded))⟩
    let again : Moment := ⟨3, .none, .relay (.message (.recordOutcome ⟨true, true, ""⟩))⟩
    let failed : Moment := ⟨4, .none, .relay (.message (.recordOutcome ⟨false, true, ""⟩))⟩
    m.input.Rules c true "" ∧ again.input.Rules (c.meet m).value true "" ∧
    (∃ x, (c.meet m).value.recorder.session = some x ∧ x.base = "http://localhost:3000" ∧
      ∀ id, id ∈ x.legs.keys ↔ ∃ stream ∈ c.captured, stream.id = id) ∧
    ((c.meet m).value.meet again).value.recorder = (c.meet m).value.recorder ∧
    c.meet failed = pure { c with board := { c.board with refusals := .none } } := by
  intro c m again failed
  have hactive : c.membership.active = true := by decide
  have hruled : m.input.Rules c true "" := .roster recorded hactive
  have hagain : again.input.Rules (c.meet m).value true "" := .outcome ⟨true, true, ""⟩ rfl
  obtain ⟨hconverges, hfailed⟩ := converges_run (.ofRelay "ws://relay") ⟨"room"⟩ ⟨"me"⟩
    (.fresh fun _ _ => false) equipped
  have hm := hconverges m true "" hruled
  obtain ⟨x, hx, -, hbase, hlegs, -⟩ := hm.begun rfl (by decide) rfl
  exact ⟨hruled, hagain, ⟨x, congrArg Recorder.session hx, hbase, hlegs⟩,
    hm.steady (fun _ _ => rfl) again hagain, hfailed failed ⟨false, true, ""⟩ rfl rfl⟩

end VideoCall.Call

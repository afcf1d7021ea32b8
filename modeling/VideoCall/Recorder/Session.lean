import VideoCall.Peer.Switchboard

/-!
# Recording sessions

While there is a recording, one connection leads to the recording service, and every captured stream
is a leg on it. This side makes the offer and does not send network candidates one by one, so the
first envelope from the connection is the complete offer. With it the service is asked to join; its
answer goes into the connection. A join that fails leaves the session as it is.

## Main definitions

* `Recorder.Session` : a recording under way.
* `Recorder` : the session, if there is one, and the number of sessions so far.
* `Recorder.start`, `Recorder.stop` : a session begins or ends.
* `Recorder.report`, `Recorder.reply` : a report of the connection, and the reply of the service.
* `Recorder.addLeg`, `Recorder.removeLeg`, `Recorder.follow` : legs come and go.
-/

namespace VideoCall

open Media Wire Outcome Peer

/-- A recording under way. -/
structure Recorder.Session where
  /-- The number of the session; no two sessions have the same one. -/
  number : Nat
  room : RoomId
  user : UserId
  /-- The base URL of the recording service. -/
  base : String
  /-- The number of the connection to the service. -/
  line : Nat
  /-- The streams that are being recorded. -/
  legs : Table StreamId Stream
  /-- Whether the offer went out. -/
  offered : Bool
  deriving DecidableEq

/-- The number of a session and that of its connection. -/
def Recorder.Session.numbers (s : Recorder.Session) : Nat × Nat := (s.number, s.line)

/-- The recording of a call. -/
structure Recorder where
  session : Option Recorder.Session
  /-- How many sessions there were. -/
  started : Nat
  /-- The base URL of the recording service, where the relay names none. -/
  defaultBase : String
  deriving DecidableEq

namespace Recorder

/-- There was no recording yet. -/
def fresh (defaultBase : String) : Recorder := ⟨none, 0, defaultBase⟩

/-- Whether there is a recording. -/
def active (r : Recorder) : Bool := r.session.isSome

/-- The streams that are being recorded, in the order of their ids. -/
def legs (r : Recorder) : List StreamId := (r.session.map fun s => s.legs.keys).getD []

/-- The base URL of the recording service, while there is a recording. -/
def url (r : Recorder) : Option String := r.session.map (·.base)

/-- Shows how many streams are being recorded. -/
def showLegs (s : Session) : Outcome Unit := gauge .recordingLegs s.legs.size

/-- Begins a session with the captured streams, unless there is one. The answer is whether it
began. -/
def start (r : Recorder) (b : Switchboard) (room : RoomId) (user : UserId) (url : Option String)
    (captured : List LocalStream) : Outcome (Recorder × Switchboard × Bool) :=
  match r.session with
  | some _ => pure (r, b, false)
  | none => do
    let legs := Table.ofList (captured.map fun m => (m.stream.id, m.stream))
    let (b, opened) ← b.dial .recording true false legs.values
    match opened with
    | .error _ => return (r, b, false)
    | .ok line => do
      let s : Session := ⟨r.started + 1, room, user, url.getD r.defaultBase, line, legs, false⟩
      showLegs s
      return ({ r with session := some s, started := r.started + 1 }, b, true)

/-- Ends the session. The answer is whether there was one. -/
def stop (r : Recorder) : Outcome (Recorder × Bool) :=
  match r.session with
  | none => pure (r, false)
  | some s => do
    Switchboard.destroy s.line
    gauge .recordingLegs 0
    return ({ r with session := none }, true)

/-- The first envelope from the connection is the offer: with it the service is asked to join. -/
def offer (r : Recorder) (signal : Signal) : Outcome Recorder :=
  match r.session with
  | none => pure r
  | some s =>
    if s.offered then pure r
    else do
      emit (.joinRequested s.number ⟨s.base, s.room, s.user, signal⟩)
      return { r with session := some { s with offered := true } }

/-- A report of the connection. A failure or its end ends the session. -/
def report (r : Recorder) : Report → Outcome Recorder
  | .signal s => r.offer s
  | .failed _ => (·.1) <$> r.stop
  | .closed => (·.1) <$> r.stop
  | .connected => pure r
  | .renegotiating => pure r
  | .track _ _ _ => pure r
  | .muted _ => pure r
  | .unmuted _ _ _ => pure r
  | .data _ => pure r

/-- The reply of the service for the session of the given number. A reply for another session is of
no interest; a failed join is the answer. -/
def reply (r : Recorder) (b : Switchboard) (session : Nat) (result : Except JoinError Signal) :
    Outcome (Option JoinError) :=
  match r.session with
  | none => pure none
  | some s =>
    if s.number = session then
      match result with
      | .error e => pure (some e)
      | .ok signal => do
        let _ ← b.tell .recording s.line (.signal signal)
        return none
    else pure none

/-- A captured stream becomes a leg, unless one of its id is a leg or the connection refuses it. -/
def addLeg (r : Recorder) (b : Switchboard) (m : LocalStream) : Outcome Recorder :=
  match r.session with
  | none => pure r
  | some s =>
    if s.legs.contains m.stream.id then pure r
    else do
      let accepted ← b.tell .recording s.line (.addStream m.stream)
      if accepted then do
        let s := { s with legs := s.legs.insert m.stream.id m.stream }
        showLegs s
        return { r with session := some s }
      else return r

/-- A captured stream is no longer a leg, whatever the connection says. -/
def removeLeg (r : Recorder) (b : Switchboard) (m : LocalStream) : Outcome Recorder :=
  match r.session with
  | none => pure r
  | some s =>
    match s.legs.get? m.stream.id with
    | none => pure r
    | some leg => do
      let _ ← b.tell .recording s.line (.removeStream leg)
      let s := { s with legs := s.legs.erase m.stream.id }
      showLegs s
      return { r with session := some s }

/-- What the recorder does about an effect: it follows captured streams, and lets all else pass. -/
def followOne (b : Switchboard) (r : Recorder) : Effect → Outcome Recorder
  | .leg (.added m) => r.addLeg b m
  | .leg (.removed m) => r.removeLeg b m
  | e => do
    emit e
    return r

/-- The recorder follows the captured streams: their coming and going turns into dealings with the
connection, each in its place among the effects. -/
def follow {α : Type} (r : Recorder) (b : Switchboard) (o : Outcome α) :
    Outcome (Recorder × α) := do
  let r ← forEach (followOne b) o.effects r
  return (r, o.value)

/-- A description of the recording. -/
def describe (r : Recorder) : String :=
  "RecordingOrchestrator \x7b session: "
    ++ (match r.session with
      | some s => "Some(" ++ toString s.number ++ ")"
      | none => "None")
    ++ ", legs: ["
    ++ ", ".intercalate (r.legs.map fun id => "StreamId(" ++ Text.quoted id.text ++ ")")
    ++ "], .. \x7d"

end Recorder

end VideoCall

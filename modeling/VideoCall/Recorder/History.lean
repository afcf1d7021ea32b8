import VideoCall.Recorder.Session

/-!
# Histories of the recorder

All that can be asked of a recorder, as data: a session begins or ends, captured streams come and
go, the connection reports, and the recording service replies, whenever it does and for whatever
session. The recorder shares its switchboard with others, so connections are opened elsewhere in
between, and what the media stack refuses may change from one moment to the next.

## Main definitions

* `Recorder.Change` : one thing that is asked of a recorder.
* `Recorder.Moment` : a change, and what went on at the switchboard meanwhile.
* `Recorder.Studio` : a recorder and its switchboard.
* `Recorder.Studio.meet`, `Recorder.Studio.run` : what one moment, or several in a row, lead to.
* `Recorder.Studio.begun` : the sessions that begin, and their connections.
-/

namespace VideoCall.Recorder

open Media Wire Outcome Peer

/-- One thing that is asked of a recorder. -/
inductive Change
  | start (room : RoomId) (user : UserId) (url : Option String) (captured : List LocalStream)
  | stop
  | addLeg (m : LocalStream)
  | removeLeg (m : LocalStream)
  /-- The connection reports, or one of an earlier session. -/
  | report (r : Report)
  /-- The recording service replied for the session of the given number. -/
  | reply (session : Nat) (result : Except JoinError Signal)

/-- A change, and what went on at the switchboard meanwhile. -/
structure Moment where
  /-- How many connections others opened since the moment before. -/
  elsewhere : Nat
  refusals : Refusals
  change : Change

/-- A recorder and its switchboard. -/
structure Studio where
  recorder : Recorder
  board : Switchboard

namespace Studio

/-- There was no recording yet. -/
def fresh (defaultBase : String) (iceServers : List IceServer) : Studio :=
  ⟨.fresh defaultBase, .fresh iceServers .none⟩

variable (d : Studio)

/-- What a change leads to. -/
def apply : Change → Outcome Studio
  | .start room user url captured => do
    let (recorder, board, _) ← d.recorder.start d.board room user url captured
    return ⟨recorder, board⟩
  | .stop => do
    let (recorder, _) ← d.recorder.stop
    return { d with recorder := recorder }
  | .addLeg m => do
    let recorder ← d.recorder.addLeg d.board m
    return { d with recorder := recorder }
  | .removeLeg m => do
    let recorder ← d.recorder.removeLeg d.board m
    return { d with recorder := recorder }
  | .report r => do
    let recorder ← d.recorder.report r
    return { d with recorder := recorder }
  | .reply session result => do
    let _ ← d.recorder.reply d.board session result
    return d

/-- The studio as a moment finds it. -/
def upTo (m : Moment) : Studio :=
  { d with board := { d.board with
      opened := d.board.opened + m.elsewhere
      refusals := m.refusals } }

/-- What a moment leads to. -/
def meet (m : Moment) : Outcome Studio := (d.upTo m).apply m.change

/-- What several moments in a row lead to. -/
def run (moments : List Moment) : Outcome Studio := forEach meet moments d

/-- The session that a change begins, if it begins one: its number and that of its connection. -/
def begun? : Change → Option (Nat × Nat)
  | .start room user url captured =>
    let (recorder, _, started) := (d.recorder.start d.board room user url captured).value
    if started then recorder.session.map Session.numbers else none
  | _ => none

/-- The sessions that moments begin, in order. -/
def begun (d : Studio) : List Moment → List (Nat × Nat)
  | [] => []
  | m :: ms => ((d.upTo m).begun? m.change).toList ++ (d.meet m).value.begun ms

end Studio

end VideoCall.Recorder

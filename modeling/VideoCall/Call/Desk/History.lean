import VideoCall.Call.Desk

/-!
# Histories of the desk

All that can happen at the desk of a call, as data: inputs are put in, the call is to end or is let
go of, time goes by, and the call deals with what waits.

## Main definitions

* `Call.Desk.Change` : one thing that happens at a desk.
* `Call.Desk.apply`, `Call.Desk.run` : what one change, or several in a row, lead to.
-/

namespace VideoCall.Call.Desk

open Outcome Peer Wire

/-- One thing that happens at a desk. -/
inductive Change
  | hear (e : Relay.Event)
  | hangLink
  | deafen
  | note (line : Nat) (key : Key) (r : Report)
  | get (session : Nat) (result : Except Recorder.JoinError Signal)
  | ask (i : Intent)
  | cancel
  | letGo
  | setRefusals (r : Refusals)
  /-- Time goes by while the call sleeps. -/
  | advance (ms : Nat)
  /-- Time goes by while inputs are being put in. -/
  | pass (ms : Nat)
  | settle

variable (d : Desk)

/-- What a change leads to. -/
def apply : Change → Outcome Desk
  | .hear e => pure (d.hear e)
  | .hangLink => pure d.hangLink
  | .deafen => pure d.deafen
  | .note line key r => pure (d.note line key r)
  | .get session result => pure (d.get session result)
  | .ask i => d.ask i
  | .cancel => pure d.cancel
  | .letGo => pure d.letGo
  | .setRefusals r => pure (d.setRefusals r)
  | .advance ms => pure (d.advance ms)
  | .pass ms => d.pass ms
  | .settle => d.settle

/-- What several changes in a row lead to. -/
def run (changes : List Change) : Outcome Desk := forEach apply changes d

end VideoCall.Call.Desk

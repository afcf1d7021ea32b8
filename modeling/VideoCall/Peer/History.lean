import VideoCall.Peer.Mesh

/-!
# Histories of the mesh

All that can be asked of a mesh, as data: connections come and go, envelopes are delivered, the
connections report, and streams are passed on. The mesh shares its switchboard with others, so
connections are opened elsewhere in between, and what the media stack refuses may change from one
moment to the next.

## Main definitions

* `Peer.Mesh.Change` : one thing that is asked of a mesh.
* `Peer.Mesh.Moment` : a change, and what went on at the switchboard meanwhile.
* `Peer.Exchange` : a mesh and its switchboard.
* `Peer.Exchange.meet`, `Peer.Exchange.run` : what one moment, or several in a row, lead to.
-/

namespace VideoCall.Peer

open Media Wire Outcome

/-- One thing that is asked of a mesh. -/
inductive Mesh.Change
  | create (user : UserId) (initiator : Bool) (streams : List Stream)
  | signal (user : UserId) (s : Signal)
  /-- A connection reports, or someone to whom there is none. -/
  | report (user : UserId) (r : Report)
  | close (user : UserId) (reason : CloseReason)
  | closeAll (reason : CloseReason)
  | tellAll (c : Command)

/-- A change, and what went on at the switchboard meanwhile. -/
structure Mesh.Moment where
  /-- How many connections others opened since the moment before. -/
  elsewhere : Nat
  refusals : Refusals
  change : Mesh.Change

/-- A mesh and its switchboard. -/
structure Exchange where
  mesh : Mesh
  board : Switchboard

namespace Exchange

/-- There was no connection yet. -/
def fresh (iceServers : List IceServer) : Exchange := ⟨.empty, .fresh iceServers .none⟩

variable (d : Exchange)

/-- What a change leads to. -/
def apply : Mesh.Change → Outcome Exchange
  | .create user initiator streams => do
    let (mesh, board, _) ← d.mesh.create d.board user initiator streams
    return ⟨mesh, board⟩
  | .signal user s => do
    let (mesh, _) ← d.mesh.signal d.board user s
    return { d with mesh := mesh }
  | .report user r => pure { d with mesh := (d.mesh.report user r).1 }
  | .close user reason => do
    let (mesh, _) ← d.mesh.close user reason
    return { d with mesh := mesh }
  | .closeAll reason => do
    let (mesh, _) ← d.mesh.closeAll reason
    return { d with mesh := mesh }
  | .tellAll c => do
    d.mesh.tellAll d.board c
    return d

/-- The exchange as a moment finds it. -/
def upTo (m : Mesh.Moment) : Exchange :=
  { d with board := { d.board with
      opened := d.board.opened + m.elsewhere
      refusals := m.refusals } }

/-- What a moment leads to. -/
def meet (m : Mesh.Moment) : Outcome Exchange := (d.upTo m).apply m.change

/-- What several moments in a row lead to. -/
def run (moments : List Mesh.Moment) : Outcome Exchange := forEach meet moments d

end Exchange

end VideoCall.Peer

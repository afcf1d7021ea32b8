import VideoCall.Peer.Switchboard

/-!
# The mesh

The mesh holds the connections to the other participants, at most one to each. A connection that is
closed is forgotten, and a later roster may lead to a fresh one.

## Main definitions

* `Peer.Mesh` : the connections.
* `Peer.Mesh.create`, `Peer.Mesh.close`, `Peer.Mesh.closeAll` : connections come and go.
* `Peer.Mesh.signal`, `Peer.Mesh.report` : an envelope for a connection, and a report of one.
* `Peer.Mesh.tellAll` : a command for every connection.
-/

namespace VideoCall.Peer

open Media Wire Outcome

/-- A connection to a participant. -/
structure Line where
  /-- The number under which the connection was opened. -/
  number : Nat
  phase : Phase
  /-- Whether this side makes the offer. -/
  initiator : Bool
  deriving DecidableEq

/-- The connections to the other participants. -/
structure Mesh where
  lines : Table UserId Line
  deriving DecidableEq

namespace Mesh

/-- No connection. -/
def empty : Mesh := ⟨∅⟩

/-- Whether there is a connection to a participant. -/
def contains (m : Mesh) (user : UserId) : Bool := m.lines.contains user

/-- How far each connection is, in the order of the participants. -/
def phases (m : Mesh) : List (UserId × Phase) :=
  m.lines.entries.map fun (user, l) => (user, l.phase)

/-- Opens a connection to a participant, unless there is one. The answer is whether it did. -/
def create (m : Mesh) (b : Switchboard) (user : UserId) (initiator : Bool) (streams : List Stream) :
    Outcome (Mesh × Switchboard × Except Failure Bool) :=
  if m.contains user then pure (m, b, .ok false)
  else do
    let (b, opened) ← b.dial (.participant user) initiator true streams
    match opened with
    | .error e => return (m, b, .error e)
    | .ok number => do
      count .peersCreated
      return (⟨m.lines.insert user ⟨number, .created, initiator⟩⟩, b, .ok true)

/-- Delivers an envelope to the connection it is for. The answer is whether there is one. -/
def signal (m : Mesh) (b : Switchboard) (user : UserId) (s : Signal) : Outcome (Mesh × Bool) :=
  match m.lines.get? user with
  | none => do
    count (.signalsDropped .unknownPeer)
    return (m, false)
  | some l => do
    let _ ← b.tell (.participant user) l.number (.signal s)
    return (⟨m.lines.insert user { l with phase := l.phase.afterSignal }⟩, true)

/-- Takes note of a report. The answer is the phase after it, if there is a connection. -/
def report (m : Mesh) (user : UserId) (r : Report) : Mesh × Option Phase :=
  match m.lines.get? user with
  | none => (m, none)
  | some l =>
    let phase := l.phase.after r
    (⟨m.lines.insert user { l with phase := phase }⟩, some phase)

/-- Destroys a connection and forgets it. The answer is whether there was one. -/
def close (m : Mesh) (user : UserId) (reason : CloseReason) : Outcome (Mesh × Bool) :=
  match m.lines.get? user with
  | none => pure (m, false)
  | some l => do
    Switchboard.destroy l.number
    count (.peersClosed reason)
    return (⟨m.lines.erase user⟩, true)

/-- Destroys and forgets every connection, in the order of the participants, who are the answer. -/
def closeAll (m : Mesh) (reason : CloseReason) : Outcome (Mesh × List UserId) := do
  let m' ← forEach (fun m user => (·.1) <$> close m user reason) m.lines.keys m
  return (m', m.lines.keys)

/-- Passes a command on to every connection, in the order of the participants. -/
def tellAll (m : Mesh) (b : Switchboard) (c : Command) : Outcome Unit :=
  forEach
    (fun () (user, l) => (fun _ => ()) <$> b.tell (.participant user) l.number c) m.lines.entries ()

/-- A description of the connections. -/
def describe (m : Mesh) : String :=
  "PeerManager \x7b peers: ["
    ++ ", ".intercalate (m.lines.keys.map fun user => "UserId(" ++ Text.quoted user.text ++ ")")
    ++ "], .. \x7d"

end Mesh

end VideoCall.Peer

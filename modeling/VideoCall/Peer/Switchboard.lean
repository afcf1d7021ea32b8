import VideoCall.Effect

/-!
# The switchboard

All peer connections of a call are opened at one switchboard, which numbers them in order. The media
stack behind it may refuse to open a connection, and an open connection may refuse a command.

## Main definitions

* `Peer.Refusals` : what the media stack refuses, by where a connection leads.
* `Peer.Switchboard` : opens connections.
* `Peer.Switchboard.dial`, `Peer.Switchboard.tell` : opens a connection, and passes on a command.
-/

namespace VideoCall.Peer

open Media Outcome

/-- What the media stack refuses, by where a connection leads. -/
structure Refusals where
  opening : Key → Bool
  signal : Key → Bool
  addStream : Key → Bool
  removeStream : Key → Bool

/-- A media stack that refuses nothing. -/
def Refusals.none : Refusals := ⟨fun _ => false, fun _ => false, fun _ => false, fun _ => false⟩

/-- Whether a command is refused on a connection that leads to the given place. -/
def Refusals.refuses (r : Refusals) (key : Key) : Command → Bool
  | .signal _ => r.signal key
  | .addStream _ => r.addStream key
  | .removeStream _ => r.removeStream key

/-- Opens connections and numbers them. -/
structure Switchboard where
  /-- How many connections were opened. -/
  opened : Nat
  refusals : Refusals
  iceServers : List IceServer

namespace Switchboard

/-- A switchboard that has not opened a connection yet. -/
def fresh (iceServers : List IceServer) (refusals : Refusals) : Switchboard :=
  ⟨0, refusals, iceServers⟩

/-- The failure to open a connection. -/
def refusal : Failure := .create "refused"

/-- Opens a connection with the given streams; its number is the answer. -/
def dial (b : Switchboard) (key : Key) (initiator trickle : Bool) (streams : List Stream) :
    Outcome (Switchboard × Except Failure Nat) :=
  let options : Options := ⟨initiator, b.iceServers, trickle, streams⟩
  if b.refusals.opening key then do
    emit (.line (.refused key options))
    return (b, .error refusal)
  else do
    emit (.line (.opened b.opened key options))
    return ({ b with opened := b.opened + 1 }, .ok b.opened)

/-- Passes a command on to an open connection; the answer is whether the connection took it. -/
def tell (b : Switchboard) (key : Key) (line : Nat) (c : Command) : Outcome Bool := do
  let accepted := !b.refusals.refuses key c
  emit (.line (.told line c accepted))
  return accepted

/-- Destroys an open connection. -/
def destroy (line : Nat) : Outcome Unit := emit (.line (.destroyed line))

end Switchboard

end VideoCall.Peer

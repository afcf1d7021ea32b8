import VideoCall.Effect
import VideoCall.Wire.Incoming

/-!
# The link to the relay

The link to the relay is a socket that carries one message in each text frame. What a call sees of
it are events: the link came up, a message arrived, the link is gone. Frames of bytes and texts that
cannot be read are counted and passed over, and so are messages of an unknown name; no frame holds
up those behind it. Reading ends with a frame that says so, with the socket, or when the client
gives the link up, and in any case the call hears of it, unless it has let go of its end.

## Main definitions

* `Relay.Event` : what a call sees of the link.
* `Relay.Frame`, `Relay.Frame.read` : what the socket delivers, and what it means.
* `Relay.Arrival` : what a reader of the socket meets.
* `Relay.receive` : the events of all that a reader meets.
* `Relay.Route`, `Relay.connect` : whether the relay can be reached, and what happens otherwise.
-/

namespace VideoCall.Relay

open Wire Outcome

/-- What a call sees of the link to the relay. -/
inductive Event
  | connected
  | disconnected
  | message (m : Incoming)

/-! ### Frames -/

/-- What the socket delivers. -/
inductive Frame
  | text (s : String)
  | binary (bytes : List UInt8)
  /-- A question whether this side is alive. -/
  | ping (bytes : List UInt8)
  | pong (bytes : List UInt8)
  | close

/-- What a frame means: a message that the client knows, one that it does not, or nothing at all. -/
def Frame.read : Frame → Except CodecError (Option Decoded)
  | text s =>
    match decode s with
    | .ok d => .ok (some d)
    | .error f => .error (.malformed f)
  | binary _ => .error .binary
  | ping _ => .ok none
  | pong _ => .ok none
  | close => .ok none

/-- The message in a frame, if the client knows one. What cannot be used is counted. -/
def Frame.deliver (f : Frame) : Outcome (Option Incoming) :=
  match f.read with
  | .ok (some (.known m)) => pure (some m)
  | .ok (some (.unknown _)) => do
    count (.signalsDropped .unknownEvent)
    return none
  | .ok none => pure none
  | .error _ => do
    count (.signalsDropped .undecodable)
    return none

/-! ### Reading -/

/-- What a reader of the socket meets next. -/
inductive Arrival
  | frame (f : Frame)
  /-- The socket cannot be read. -/
  | failed (why : String)
  /-- The client gives the link up. -/
  | cancelled
  /-- The call lets go of its end, and hears nothing from then on. -/
  | deserted

/-- The events of a link that is gone; `held` is whether the call has hold of its end. -/
def farewell (held : Bool) : List Event := if held then [.disconnected] else []

/-- The events of an open link. The socket ends where nothing more comes. A message that the call
does not hear is the end of reading, too. -/
def listen : Bool → List Arrival → Outcome (List Event)
  | held, [] => pure (farewell held)
  | held, .frame .close :: _ => pure (farewell held)
  | held, .failed _ :: _ => pure (farewell held)
  | held, .cancelled :: _ => pure (farewell held)
  | _, .deserted :: as => listen false as
  | held, .frame f :: as => do
    match ← f.deliver with
    | none => listen held as
    | some m =>
      if held then
        let later ← listen held as
        return .message m :: later
      else return []

/-- The events of a socket that is open, from the word that it is. -/
def receive (as : List Arrival) : Outcome (List Event) := do
  let events ← listen true as
  return .connected :: events

/-! ### Connecting -/

/-- Whether the relay can be reached. -/
inductive Route
  | reachable
  /-- The socket cannot be opened, and says why. -/
  | unreachable (why : String)
  deriving DecidableEq

/-- Opens the link: the error, if the relay cannot be reached. -/
def connect : Route → Except CallError Unit
  | .reachable => .ok ()
  | .unreachable why => .error (.transport ("websocket connect failed: " ++ why))

/-- Opens the link for a call with the given settings, which are looked at first. -/
def connectWith (s : Settings) (r : Route) : Except CallError Unit :=
  match s.check with
  | .error e => .error (.settings e)
  | .ok () => connect r

end VideoCall.Relay

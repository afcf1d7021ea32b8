import VideoCall.Gallery.Announce
import VideoCall.Gallery.Locals
import VideoCall.Membership
import VideoCall.Peer.Mesh
import VideoCall.Recorder.Session
import VideoCall.Relay.Link

/-!
# A call

A call holds everything that belongs to one participant in one room: the membership of the room, the
gallery of streams, the connections to the others, and the recording. It deals with one input at a
time, and each reaction is complete before the next input is taken.

## Main definitions

* `Intent` : what the participant asks for.
* `Call.Input` : what a call reacts to.
* `Call` : the state of a call.
* `Call.status`, `Call.notify`, `Call.send` : what a call shows, tells and sends.
-/

namespace VideoCall

open Media Wire Outcome Peer

/-- What the participant asks for. -/
inductive Intent
  /-- To join the room under a name. -/
  | dial (nickname : String)
  /-- To leave the call. -/
  | hangUp
  /-- To start or stop the recording. -/
  | toggleRecord
  | addLocal (type : StreamType) (stream : Stream)
  | removeLocal (type : StreamType)
  /-- Another track is the picture of a captured stream. -/
  | trackChanged (type : StreamType) (t : Track)
  | getStatus

/-- Whether the participant waits for an answer of the call. Word of a changed track needs no more
than a place in the mailbox. -/
def Intent.needsAnswer : Intent → Bool
  | .trackChanged _ _ => false
  | _ => true

/-- A dial that has no answer yet. -/
structure PendingDial where
  /-- The number of the intent. -/
  ticket : Nat
  /-- The time at which it fails, in milliseconds. -/
  deadline : Nat
  deriving DecidableEq

/-- The state of a call. -/
structure Call where
  /-- How long a dial waits for the roster, in milliseconds. -/
  dialTimeout : Nat
  /-- Whether the link to the relay is up. -/
  connected : Bool
  /-- Whether the relay takes messages. -/
  outboundOpen : Bool
  membership : Membership
  gallery : Gallery
  mesh : Mesh
  recorder : Recorder
  board : Switchboard
  pending : Option PendingDial
  /-- Whether this participant makes the offers, by the latest roster. -/
  isInitiator : Option Bool

namespace Call

/-- What a call reacts to. -/
inductive Input
  | relay (e : Relay.Event)
  /-- A connection reports. The call goes by where the connection leads; its number says which one
  it was. -/
  | report (line : Nat) (key : Key) (r : Report)
  /-- The recording service replied for the session of the given number. -/
  | reply (session : Nat) (result : Except Recorder.JoinError Signal)
  /-- The participant asks for something. -/
  | intent (ticket : Nat) (i : Intent)
  /-- The deadline of the pending dial has come. -/
  | deadline

/-- A call that nothing has happened to. -/
def fresh (s : Settings) (room : RoomId) (user : UserId) (urls : UrlSource) (refusals : Refusals) :
    Call where
  dialTimeout := s.dialTimeout
  connected := false
  outboundOpen := true
  membership := .fresh room user
  gallery := .empty urls
  mesh := .empty
  recorder := .fresh s.recordUrl
  board := .fresh s.iceServers refusals
  pending := none
  isInitiator := none

variable (c : Call)

/-- The streams captured here, the camera first. -/
def captured : List Stream := c.gallery.locals.values.map (·.stream)

/-- The state as far as the participant sees it. -/
def status : CallStatus where
  room := c.membership.room
  user := c.membership.user
  connected := c.connected
  active := c.membership.active
  isInitiator := c.isInitiator
  creator := c.membership.creator
  nicknames := c.membership.nicknames
  peers := c.mesh.phases
  streams := c.gallery.snapshot
  recording := c.recorder.active
  legs := c.recorder.legs
  recordUrl := c.recorder.url

/-! ### Telling and answering -/

/-- Publishes words for the participant. -/
def notify (level : Level) (message : String) : Outcome Unit :=
  emit (.published (.notification level message))

/-- Publishes what there is to render. -/
def publishStreams : Outcome Unit := emit (.published (.streams c.gallery.snapshot))

/-- Publishes that the recording started or ended. -/
def publishRecording (active : Bool) : Outcome Unit := emit (.published (.recording active))

/-- Sends a message to the relay. It is lost if the relay takes none. -/
def send (m : Outgoing) : Outcome Unit :=
  when c.outboundOpen (emit (.sent ⟨c.membership.room, m⟩))

/-- Answers the pending dial, if there is one. -/
def settleDial (a : Answer) : Outcome Call :=
  match c.pending with
  | none => pure c
  | some p => do
    emit (.answered p.ticket a)
    return { c with pending := none }

/-- Answers the pending dial, if there is one, and counts how it ended. -/
def settleCounted (outcome : DialOutcome) (a : Answer) : Outcome Call :=
  match c.pending with
  | none => pure c
  | some _ => do
    count (.dials outcome)
    c.settleDial a

end Call

end VideoCall

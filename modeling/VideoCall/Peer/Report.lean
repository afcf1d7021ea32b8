import VideoCall.Media.Stream
import VideoCall.Settings
import VideoCall.Wire.Payload

/-!
# Peer connections as seen from outside

The media stack makes peer connections. A connection leads to a participant or to the recording
service, takes commands, and reports what happens on it.

## Main definitions

* `Peer.Key` : where a connection leads.
* `Peer.Failure` : what a connection can fail with.
* `Peer.Report` : what a connection reports.
* `Peer.Options`, `Peer.Command` : what a connection is opened with, and what it is told later.
* `Peer.LineEvent` : the dealings with the media stack, in the order in which they happen.
-/

namespace VideoCall.Peer

open Media Wire

/-- Where a connection leads. -/
inductive Key
  /-- To a participant, or to the server that stands in for several. -/
  | participant (user : UserId)
  /-- To the recording service. -/
  | recording
  deriving DecidableEq

/-- The words for a destination. -/
def Key.describe : Key → String
  | participant user => user.text
  | recording => "<recording>"

/-- What a connection can fail with. -/
inductive Failure
  /-- It could not be made. -/
  | create (why : String)
  /-- An envelope was rejected. -/
  | invalidSignal (why : String)
  /-- It was destroyed already. -/
  | destroyed
  /-- The two sides did not agree. -/
  | negotiation (why : String)
  deriving DecidableEq

/-- The words for a failure. -/
def Failure.message : Failure → String
  | create why => "Failed to create peer connection: " ++ why
  | invalidSignal why => "Invalid signal: " ++ why
  | destroyed => "Peer connection destroyed"
  | negotiation why => "Negotiation failed: " ++ why

/-- What a connection reports. -/
inductive Report
  /-- An envelope for the other side. -/
  | signal (s : Signal)
  | connected
  /-- Negotiation starts again, because streams came or went. -/
  | renegotiating
  /-- A track arrived in a media section; `stream` is the id it came with. -/
  | track (t : Track) (stream : StreamId) (mid : Mid)
  /-- A track was muted or ended. -/
  | muted (id : TrackId)
  /-- A muted track resumed in a media section. -/
  | unmuted (t : Track) (stream : StreamId) (mid : Mid)
  /-- Bytes from the other side. -/
  | data (bytes : List UInt8)
  | failed (e : Failure)
  | closed

/-- What a connection is opened with. -/
structure Options where
  /-- Whether this side makes the offer. -/
  initiator : Bool
  iceServers : List IceServer
  /-- Whether network candidates go out one by one; otherwise the offer waits for all of them. -/
  trickle : Bool
  /-- The streams to send from the start. -/
  streams : List Stream
  deriving DecidableEq

/-- What an open connection is told. -/
inductive Command
  /-- An envelope from the other side. -/
  | signal (s : Signal)
  | addStream (m : Stream)
  | removeStream (m : Stream)

/-- The dealings with the media stack. Connections are numbered as they are opened. -/
inductive LineEvent
  | opened (line : Nat) (key : Key) (options : Options)
  /-- A connection was asked for and not opened. -/
  | refused (key : Key) (options : Options)
  /-- A command, and whether the connection took it. -/
  | told (line : Nat) (command : Command) (accepted : Bool)
  | destroyed (line : Nat)

end VideoCall.Peer

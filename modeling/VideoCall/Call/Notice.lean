import VideoCall.Call.Error
import VideoCall.Gallery.Basic
import VideoCall.Peer.Phase

/-!
# What a call tells its user

A call publishes notices as it goes along, answers what it is asked, and can describe its state.

## Main definitions

* `Notice`, `Feed` : what a call publishes, and how much of it a subscriber who is slow still gets.
* `CallStatus` : the state of a call, as far as a user sees it.
* `Answer` : what a call answers to an intent.
-/

namespace VideoCall

open Media

/-- How serious a notification is. -/
inductive Level
  | info
  | warning
  | error
  deriving DecidableEq

/-- The name of a level. -/
def Level.name : Level → String
  | info => "info"
  | warning => "warning"
  | error => "error"

/-- What a call publishes. -/
inductive Notice
  /-- Words for the participant. -/
  | notification (level : Level) (message : String)
  /-- What there is to render has changed. -/
  | streams (s : Gallery.Snapshot)
  /-- Bytes from another participant. -/
  | data (user : UserId) (bytes : List UInt8)
  /-- The recording started or ended. -/
  | recording (active : Bool)
  deriving DecidableEq

namespace Feed

/-- How many notices wait for a subscriber. -/
def capacity : Nat := 256

/-- How many of the notices are lost to a subscriber who has not taken any. -/
def lost (ns : List Notice) : Nat := ns.length - capacity

/-- The notices that are left: the latest ones. -/
def kept (ns : List Notice) : List Notice := ns.drop (lost ns)

end Feed

/-- The state of a call, as far as a user sees it. -/
structure CallStatus where
  room : RoomId
  user : UserId
  /-- Whether the link to the relay is up. -/
  connected : Bool
  /-- Whether the participant has joined, or is about to. -/
  active : Bool
  /-- Whether this participant makes the offers; not known before the first roster. -/
  isInitiator : Option Bool
  /-- The participant who made the room. -/
  creator : Option UserId
  nicknames : Table UserId String
  peers : List (UserId × Peer.Phase)
  streams : Gallery.Snapshot
  recording : Bool
  /-- The streams that are being recorded. -/
  legs : List StreamId
  /-- The base URL of the recording service, while there is a recording. -/
  recordUrl : Option String
  deriving DecidableEq

/-- What a call answers to an intent. -/
inductive Answer
  | done
  /-- The captured stream as it was installed. -/
  | installed (m : LocalStream)
  /-- The captured stream that was removed, if there was one. -/
  | removed (m : Option LocalStream)
  | status (s : CallStatus)
  | failed (e : CallError)

end VideoCall

import VideoCall.Json.Reader
import VideoCall.Wire.Payload

/-!
# Messages to the relay

A message to the relay names the room it is for, beside its type and payload.

## Main definitions

* `Wire.Outgoing` : what the client tells the relay.
* `Wire.Envelope` : the same with the room.
* `Wire.Envelope.text`, `Wire.Envelope.ofText` : the text of a message, and the message of a text.
-/

namespace VideoCall.Wire

open Json

/-- What the client tells the relay. -/
inductive Outgoing
  /-- The room should exist. -/
  | createRoom (room : RoomId) (user : UserId)
  /-- The participant is ready to join under a name. -/
  | ready (room : RoomId) (user : UserId) (nickname : String)
  /-- An envelope for another participant. -/
  | signal (receiver : UserId) (s : Signal)
  /-- The participant leaves. -/
  | hangUp (user : UserId)
  /-- The participant wishes to start or stop the recording. -/
  | record (recording : Bool) (user : UserId)

namespace Outgoing

/-- The kinds of messages to the relay. -/
inductive Kind
  | createRoom
  | ready
  | signal
  | hangUp
  | record
  deriving DecidableEq

namespace Kind

/-- The name of a kind. -/
def name : Kind → String
  | createRoom => "create_room"
  | ready => "ready"
  | signal => "signal"
  | hangUp => "hangUp"
  | record => "record"

/-- All kinds, in the order in which messages name them. -/
def all : List Kind := [createRoom, ready, signal, hangUp, record]

end Kind

/-- The form of a wish for a room. -/
def createRoomFormat : Format (RoomId × UserId) :=
  .record "CreateRoomPayload" (.field "room" ident <| .field "userId" ident .nil)
    (fun (room, user, ()) => (room, user)) (fun (room, user) => (room, user, ()))

/-- The form of the word that a participant is ready. -/
def readyFormat : Format (RoomId × UserId × String) :=
  .record "ReadyPayload"
    (.field "room" ident <| .field "userId" ident <| .field "nickname" .text .nil)
    (fun (room, user, nickname, ()) => (room, user, nickname))
    (fun (room, user, nickname) => (room, user, nickname, ()))

/-- The form of a wish about the recording. -/
def recordFormat : Format (Bool × UserId) :=
  .record "RecordPayload" (.field "recordStatus" .flag <| .field "userId" ident .nil)
    (fun (recording, user, ()) => (recording, user))
    (fun (recording, user) => (recording, user, ()))

/-- How the payload of a kind is read. -/
def readPayload (k : Kind) (o : Origin) (n : Node) : Except Fault Outgoing :=
  match k with
  | .createRoom => (createRoomFormat.read o n).map fun (room, user) => createRoom room user
  | .ready => (readyFormat.read o n).map fun (room, user, nickname) => ready room user nickname
  | .signal => (signalFormat.read o n).map fun (receiver, s) => signal receiver s
  | .hangUp => ((userFormat "HangUpPayload" "userId").read o n).map hangUp
  | .record => (recordFormat.read o n).map fun (recording, user) => record recording user

/-- The kind of a message. -/
def kind : Outgoing → Kind
  | createRoom _ _ => .createRoom
  | ready _ _ _ => .ready
  | signal _ _ => .signal
  | hangUp _ => .hangUp
  | record _ _ => .record

/-- The payload of a message. -/
def payload : Outgoing → Node
  | createRoom room user => createRoomFormat.write (room, user)
  | ready room user nickname => readyFormat.write (room, user, nickname)
  | signal receiver s => signalFormat.write (receiver, s)
  | hangUp user => (userFormat "HangUpPayload" "userId").write user
  | record recording user => recordFormat.write (recording, user)

/-- The form of what the client tells the relay. -/
def format : Tagged Kind Outgoing where
  title := "adjacently tagged enum ClientEvent"
  kinds := Kind.all.map fun k => (k.name, k)
  nameOf := Kind.name
  payload := readPayload
  write m := (m.kind, m.payload)

/-- The name of a message. -/
def name (m : Outgoing) : String := m.kind.name

end Outgoing

/-- A message to the relay with the room it is for. -/
structure Envelope where
  room : RoomId
  message : Outgoing

namespace Envelope

/-- The room and the other members, each checked as it comes: a second room is a fault, and so is a
member that cannot be held back until the type is known. -/
def sort (o : Origin) (closed : Bool) :
    List (Key × Node) → Option RoomId → Except Fault (Option RoomId × List (Key × Node))
  | [], room => if closed then .ok (room, []) else .error .garbled
  | (.name s, n) :: r, room =>
    if s = "room" then
      match room with
      | some _ => .error (.shape (.duplicateField s))
      | none => do sort o closed r (some (← ident.read o n))
    else do
      Tagged.hold o n
      let (room, others) ← sort o closed r room
      return (room, (.name s, n) :: others)
  | (_, _) :: _, _ => .error .garbled

/-- Reads a message: an object with the room beside type and payload. -/
def read (o : Origin) : Node → Except Fault Envelope
  | .object members closed => do
    let (room, others) ← sort o closed members none
    match room with
    | none => .error (.shape (.missingField "room"))
    | some room => return ⟨room, ← Outgoing.format.read .held (.object others true)⟩
  | n => .error (.mismatch n "struct ClientMessage")

/-- The document of a message. -/
def node (m : Envelope) : Node :=
  .object ((.name "room", ident.write m.room) :: Outgoing.format.members m.message) true

/-- The text of a message. -/
def text (m : Envelope) : String := m.node.text

/-- The message that a text holds. -/
def ofText (s : String) : Except Fault Envelope := do
  let d := Document.read s
  let m ← read .text d.root
  if d.trailing then .error .garbled
  return m

end Envelope

end VideoCall.Wire

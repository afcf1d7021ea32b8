import VideoCall.Json.Reader
import VideoCall.Wire.Payload

/-!
# Messages from the relay

A message from the relay is tagged data with the name of the event for its type. A message of a name
that the client does not know is set aside, whatever it carries.

## Main definitions

* `Wire.Incoming` : a message from the relay.
* `Wire.Incoming.format` : its form, as tagged data.
* `Wire.Decoded`, `Wire.decode` : a text from the relay in two steps, the envelope first.
-/

namespace VideoCall.Wire

open Json

/-- A message from the relay. -/
inductive Incoming
  /-- Who is in the room. -/
  | roster (r : Roster)
  /-- An envelope from another participant. -/
  | signal (sender : UserId) (s : Signal)
  /-- All announcements of a sender. -/
  | announcements (sender : UserId) (batch : List Announcement)
  /-- A participant left. -/
  | hangUp (user : UserId)
  /-- The room exists, made by the given participant. -/
  | roomCreated (creator : UserId)
  /-- What became of a wish to start or stop the recording. -/
  | recordOutcome (r : RecordOutcome)

namespace Incoming

/-- The kinds of messages from the relay. -/
inductive Kind
  | roster
  | signal
  | announcements
  | hangUp
  | roomCreated
  | recordOutcome
  deriving DecidableEq

namespace Kind

/-- The name of a kind. -/
def name : Kind → String
  | roster => "users"
  | signal => "signal"
  | announcements => "metadata"
  | hangUp => "hangUp"
  | roomCreated => "room_created"
  | recordOutcome => "record_callback"

/-- All kinds, in the order in which messages name them. -/
def all : List Kind := [roster, signal, announcements, hangUp, roomCreated, recordOutcome]

end Kind

/-- The form of a sender's announcements. -/
def announcementsFormat : Format (UserId × List Announcement) :=
  .record "MetadataPayload"
    (.field "userId" ident <| .field "metadata" (.list Announcement.format) .nil)
    (fun (sender, batch, ()) => (sender, batch)) (fun (sender, batch) => (sender, batch, ()))

/-- How the payload of a kind is read. -/
def readPayload (k : Kind) (o : Origin) (n : Node) : Except Fault Incoming :=
  match k with
  | .roster => (Roster.format.read o n).map roster
  | .signal => (signalFormat.read o n).map fun (sender, s) => signal sender s
  | .announcements =>
    (announcementsFormat.read o n).map fun (sender, batch) => announcements sender batch
  | .hangUp => ((userFormat "HangUpPayload" "userId").read o n).map hangUp
  | .roomCreated => ((userFormat "RoomCreatedPayload" "creatorId").read o n).map roomCreated
  | .recordOutcome => (RecordOutcome.format.read o n).map recordOutcome

/-- The kind of a message. -/
def kind : Incoming → Kind
  | roster _ => .roster
  | signal _ _ => .signal
  | announcements _ _ => .announcements
  | hangUp _ => .hangUp
  | roomCreated _ => .roomCreated
  | recordOutcome _ => .recordOutcome

/-- The payload of a message. -/
def payload : Incoming → Node
  | roster r => Roster.format.write r
  | signal sender s => signalFormat.write (sender, s)
  | announcements sender batch => announcementsFormat.write (sender, batch)
  | hangUp user => (userFormat "HangUpPayload" "userId").write user
  | roomCreated user => (userFormat "RoomCreatedPayload" "creatorId").write user
  | recordOutcome r => RecordOutcome.format.write r

/-- The form of messages from the relay. -/
def format : Tagged Kind Incoming where
  title := "adjacently tagged enum ServerEvent"
  kinds := Kind.all.map fun k => (k.name, k)
  nameOf := Kind.name
  payload := readPayload
  write m := (m.kind, m.payload)

/-- The name of a message. -/
def name (m : Incoming) : String := m.kind.name

/-- The message that a text holds, read in one go. -/
def ofText (s : String) : Except Fault Incoming := do
  let d := Document.read s
  let m ← format.read .text d.root
  if d.trailing then .error .garbled
  return m

/-- The text of a message. -/
def text (m : Incoming) : String := (format.node m).text

end Incoming

/-! ### Decoding in two steps -/

/-- What a text from the relay turns out to be. -/
inductive Decoded
  | known (m : Incoming)
  /-- A message of a name that the client does not know. -/
  | unknown (name : String)

/-- The outer form of a message: its type, and its payload as it stands. -/
def outerFormat : Format (String × Value) :=
  .record "RawEnvelope" (.field "type" .text <| .fieldOr "payload" (.free 1) .null .nil)
    (fun (kind, payload, ()) => (kind, payload)) (fun (kind, payload) => (kind, payload, ()))

/-- The message of a type and a free-form payload. The members are taken in the order of their
names, so the payload is held back until the type is known. -/
def ofOuter (kind : String) (payload : Value) : Except Fault Incoming :=
  Incoming.format.read .value
    (.object [(.name "payload", .ofValue payload), (.name "type", .string (some kind))] true)

/-- Decodes a text from the relay: the outer form first, the payload only if the name is known. -/
def decode (s : String) : Except Fault Decoded := do
  let d := Document.read s
  let (kind, payload) ← outerFormat.read .text d.root
  if d.trailing then .error .garbled
  if (Incoming.Kind.all.map (·.name)).contains kind then
    return .known (← ofOuter kind payload)
  else return .unknown kind

end VideoCall.Wire

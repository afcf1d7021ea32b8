import VideoCall.Json.Tagged
import VideoCall.Media.Track
import VideoCall.Table

/-!
# What messages carry

The relay and the participants exchange negotiation envelopes, rosters of the room, announcements
that say what a media section carries, and the state of the recording. Each has a format.

## Main definitions

* `Wire.Signal` : a negotiation envelope, which only the peer connections look into.
* `Wire.Announcement` : what one media section of a sender carries.
* `Wire.Roster`, `Wire.RecordOutcome` : the room as the relay sees it.
* `Wire.ident` : the format of an identifier.
-/

namespace VideoCall.Wire

open Json Media

/-- The form of an identifier: its text. -/
def ident {kind : IdentKind} : Format (Ident kind) := Format.text.map Ident.mk Ident.text

/-! ### Negotiation envelopes -/

/-- A negotiation envelope: a session description or a network candidate. -/
structure Signal where
  value : Value

namespace Signal

/-- The kind of session description, such as `offer` or `answer`, if the envelope names one. -/
def kind? (s : Signal) : Option String := (s.value.member? "type").bind Value.text?

/-- The text of the envelope. -/
def text (s : Signal) : String := s.value.text

/-- The form of an envelope that stands in a payload. -/
def format : Format Signal := (Format.free 2).map Signal.mk Signal.value

end Signal

/-! ### Announcements -/

/-- What one media section of a sender carries: whose track it is, and in which stream it goes. -/
structure Announcement where
  mid : Mid
  kind : TrackKind
  user : UserId
  stream : StreamId
  deriving DecidableEq

namespace Announcement

/-- The form of an announcement. -/
def format : Format Announcement :=
  .record "TrackMetadata"
    (.field "mid" ident <| .field "kind" TrackKind.format <| .field "userId" ident <|
      .field "streamId" ident .nil)
    (fun (mid, kind, user, stream, ()) => ⟨mid, kind, user, stream⟩)
    (fun a => (a.mid, a.kind, a.user, a.stream, ()))

end Announcement

/-! ### The room -/

/-- Who is in the room, and whether it is being recorded. -/
structure Roster where
  /-- The participant who makes the offers. -/
  initiator : UserId
  /-- The participants with media, in the relay's order. -/
  peers : List UserId
  /-- The names that participants go by. -/
  nicknames : Table UserId String
  recording : Bool
  /-- Where the recording service is; empty if the relay does not say. -/
  recordUrl : String

namespace Roster

/-- The form of the names that participants go by. -/
def nicknameFormat : Format (Table UserId String) :=
  (Format.pairs .text).map
    (fun l => Table.ofList (l.map fun (user, name) => (⟨user⟩, name)))
    (fun t => t.entries.map fun (user, name) => (user.text, name))

/-- The form of a roster. -/
def format : Format Roster :=
  .record "UsersPayload"
    (.field "initiator" ident <| .field "peerIds" (.list ident) <|
      .fieldOr "nicknames" nicknameFormat Table.empty <| .fieldOr "recordStatus" .flag false <|
      .fieldOr "recordUrl" .text "" .nil)
    (fun (initiator, peers, nicknames, recording, recordUrl, ()) =>
      ⟨initiator, peers, nicknames, recording, recordUrl⟩)
    (fun r => (r.initiator, r.peers, r.nicknames, r.recording, r.recordUrl, ()))

end Roster

/-- What became of a wish to start or stop the recording. -/
structure RecordOutcome where
  successful : Bool
  recording : Bool
  /-- Where the recording service is; empty if the relay does not say. -/
  url : String
  deriving DecidableEq

namespace RecordOutcome

/-- The form of an outcome. -/
def format : Format RecordOutcome :=
  .record "RecordCallbackPayload"
    (.field "successful" .flag <| .field "recordStatus" .flag <| .fieldOr "url" .text "" .nil)
    (fun (successful, recording, url, ()) => ⟨successful, recording, url⟩)
    (fun r => (r.successful, r.recording, r.url, ()))

end RecordOutcome

/-- The form of a payload that is a participant alone. -/
def userFormat (title : String) (field : String) : Format UserId :=
  .record title (.field field ident .nil) (fun (user, ()) => user) (fun user => (user, ()))

/-- The form of an envelope with the participant it comes from or goes to. -/
def signalFormat : Format (UserId × Signal) :=
  .record "SignalPayload" (.field "userId" ident <| .field "signal" Signal.format .nil)
    (fun (user, signal, ()) => (user, signal)) (fun (user, signal) => (user, signal, ()))

end VideoCall.Wire

import VideoCall.Json.Fault
import VideoCall.Text.Base64
import VideoCall.Wire.Payload

/-!
# Joining the recording service

The recording service is asked to join by one request: the offer of the recording connection, as
base 64 of its JSON text, goes to an address that names the room and the participant.

## Main definitions

* `Recorder.JoinRequest` : a request, with its address and body.
* `Recorder.JoinError` : why there is no answer.
-/

namespace VideoCall.Recorder

open Wire

/-- The wish that the recording service joins. -/
structure JoinRequest where
  /-- The base URL of the service. -/
  base : String
  room : RoomId
  user : UserId
  offer : Signal

namespace JoinRequest

/-- The base URL without the slashes at its end. -/
def trimmedBase (base : String) : List Char :=
  (base.toList.reverse.dropWhile (· = '/')).reverse

/-- The address of a request. -/
def url (r : JoinRequest) : String :=
  String.ofList (trimmedBase r.base) ++ "/api/sessions/" ++ r.room.text ++ "/join/" ++ r.user.text

/-- The body of a request. -/
def body (r : JoinRequest) : String := Text.base64 r.offer.text

end JoinRequest

/-- Why the recording service gave no answer. -/
inductive JoinError
  | unreachable (why : String)
  /-- A status that does not mean success. -/
  | status (code : Nat)
  | invalidAnswer (why : String)
  /-- The offer could not be written. -/
  | encode (f : Json.Fault)

/-- The words for what is wrong with a document. -/
def faultMessage : Json.Fault → String
  | .garbled => "not a JSON text"
  | .shape p => p.message

/-- The words for an error. -/
def JoinError.message : JoinError → String
  | unreachable why => "Recording service unreachable: " ++ why
  | status code => "Recording service returned status " ++ toString code
  | invalidAnswer why => "Invalid answer from recording service: " ++ why
  | encode f => "Failed to encode offer: " ++ faultMessage f

end VideoCall.Recorder

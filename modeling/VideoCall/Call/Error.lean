import VideoCall.Peer.Report
import VideoCall.Recorder.Join
import VideoCall.Settings

/-!
# What a call fails with

Whoever asks something of a call can be told why it did not happen: in full for a log, in one plain
sentence for the participant, and with the hint whether it is worth another try.

## Main definitions

* `CodecError` : what is wrong with a message from the relay.
* `CallError` : why a call did not do what it was asked.
* `CallError.message`, `CallError.clientMessage`, `CallError.retryable` : the three ways to tell.
-/

namespace VideoCall

/-- What is wrong with a message from the relay. -/
inductive CodecError
  | malformed (f : Json.Fault)
  /-- A frame of bytes; the relay speaks text only. -/
  | binary

/-- The words for a message that cannot be read. -/
def CodecError.message : CodecError → String
  | malformed f => "Malformed message: " ++ Recorder.faultMessage f
  | binary => "Unexpected binary frame"

/-- Why a call did not do what it was asked. -/
inductive CallError
  /-- No roster came before the deadline, which is given in milliseconds. -/
  | dialTimeout (timeout : Nat)
  /-- A newer dial or a hang-up came in between. -/
  | dialSuperseded
  /-- The link to the relay is gone. -/
  | relayClosed
  /-- The link to the relay could not be made. -/
  | transport (why : String)
  | codec (e : CodecError)
  | peer (e : Peer.Failure)
  | recording (e : Recorder.JoinError)
  | settings (e : SettingsError)
  /-- The call is over. -/
  | ended

namespace CallError

/-- The words for a log. -/
def message : CallError → String
  | dialTimeout timeout => "Dial timed out after " ++ toString timeout ++ " ms"
  | dialSuperseded => "Dial superseded by a newer attempt"
  | relayClosed => "Relay channel closed"
  | transport why => "Transport error: " ++ why
  | codec e => "Codec error: " ++ e.message
  | peer e => "Peer error: " ++ e.message
  | recording e => "Recording error: " ++ e.message
  | settings e => "Configuration error: " ++ e.message
  | ended => "Call actor is not running"

/-- The words for the participant, which give nothing away of the inside. -/
def clientMessage : CallError → String
  | dialTimeout _ => "Dial timed out."
  | dialSuperseded => "Dial cancelled."
  | relayClosed => "Connection to the server was lost."
  | transport _ => "Connection to the server was lost."
  | recording _ => "Recording is unavailable."
  | peer _ => "Could not connect to a peer."
  | codec _ => "An internal error occurred."
  | settings _ => "An internal error occurred."
  | ended => "An internal error occurred."

/-- Whether another try may succeed. -/
def retryable : CallError → Bool
  | dialTimeout _ => true
  | dialSuperseded => true
  | relayClosed => true
  | transport _ => true
  | recording _ => true
  | codec _ => false
  | peer _ => false
  | settings _ => false
  | ended => false

end CallError

end VideoCall

import VideoCall.Table

/-!
# Metrics

Counters add up over a run, and gauges hold the last value set. Every metric that was touched has a
value.

## Main definitions

* `Counter`, `Gauge` : the metrics, with labels from fixed sets.
* `Measurement` : a counter raised by one, or a gauge set.
* `Readings` : the values of the metrics touched so far.
-/

namespace VideoCall

/-- Why a connection to a peer was closed. -/
inductive CloseReason
  | hangUp
  | error
  | remoteClose
  deriving DecidableEq

/-- Why a message from the relay was dropped. -/
inductive DropReason
  /-- No connection to the sender. -/
  | unknownPeer
  /-- The client has not joined. -/
  | notJoined
  /-- An event the client does not know. -/
  | unknownEvent
  | undecodable
  deriving DecidableEq

/-- How a dial ended. -/
inductive DialOutcome
  | joined
  | timeout
  | superseded
  deriving DecidableEq

/-- A number that only grows. -/
inductive Counter
  | peersCreated
  | peersClosed (reason : CloseReason)
  | signalsDropped (reason : DropReason)
  | tracksWithdrawn
  | dials (outcome : DialOutcome)
  deriving DecidableEq

/-- A number that goes up and down. -/
inductive Gauge
  | remoteStreams
  | recordingLegs
  deriving DecidableEq

/-- A counter raised by one, or a gauge set. -/
inductive Measurement
  | count (c : Counter)
  | set (g : Gauge) (n : Nat)
  deriving DecidableEq

namespace CloseReason

/-- The label of a reason. -/
def label : CloseReason → String
  | hangUp => "hang_up"
  | error => "error"
  | remoteClose => "remote_close"

end CloseReason

namespace DropReason

/-- The label of a reason. -/
def label : DropReason → String
  | unknownPeer => "unknown_peer"
  | notJoined => "no_handshake"
  | unknownEvent => "unknown_event"
  | undecodable => "undecodable"

end DropReason

namespace DialOutcome

/-- The label of an outcome. -/
def label : DialOutcome → String
  | joined => "joined"
  | timeout => "timeout"
  | superseded => "superseded"

end DialOutcome

/-- A metric's name with its one label. -/
def labelled (name label value : String) : String :=
  name ++ "\x7b" ++ label ++ "=" ++ value ++ "\x7d"

/-- The name of a counter, with its label. -/
def Counter.name : Counter → String
  | peersCreated => "call_peers_created_total"
  | peersClosed reason => labelled "call_peers_closed_total" "reason" reason.label
  | signalsDropped reason => labelled "call_signals_dropped_total" "reason" reason.label
  | tracksWithdrawn => "call_tracks_withdrawn_total"
  | dials outcome => labelled "call_dials_total" "outcome" outcome.label

/-- The name of a gauge. -/
def Gauge.name : Gauge → String
  | remoteStreams => "call_remote_streams_active"
  | recordingLegs => "call_recording_legs_active"

/-- The values of the metrics touched so far, by name. -/
abbrev Readings := Table String Nat

/-- The readings after one more measurement. -/
def Readings.note (r : Readings) : Measurement → Readings
  | .count c => r.insert c.name ((r.get? c.name).getD 0 + 1)
  | .set g n => r.insert g.name n

end VideoCall

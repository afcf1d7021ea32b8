import VideoCall.Call.Basic
import VideoCall.Call.Desk
import VideoCall.Call.Desk.History
import VideoCall.Call.Error
import VideoCall.Call.History
import VideoCall.Call.Notice
import VideoCall.Call.Reaction
import VideoCall.Effect
import VideoCall.Gallery.Announce
import VideoCall.Gallery.Basic
import VideoCall.Gallery.History
import VideoCall.Gallery.Locals
import VideoCall.Gallery.Tracks
import VideoCall.Ident
import VideoCall.Json.Fault
import VideoCall.Json.Format
import VideoCall.Json.Node
import VideoCall.Json.Number
import VideoCall.Json.Reader
import VideoCall.Json.Tagged
import VideoCall.Json.Token
import VideoCall.Json.Value
import VideoCall.Json.Writer
import VideoCall.Media.History
import VideoCall.Media.Stream
import VideoCall.Media.Track
import VideoCall.Media.Url
import VideoCall.Membership
import VideoCall.Membership.History
import VideoCall.Metric
import VideoCall.Number.Double
import VideoCall.Number.Shortest
import VideoCall.Peer.History
import VideoCall.Peer.Mesh
import VideoCall.Peer.Phase
import VideoCall.Peer.Report
import VideoCall.Peer.Switchboard
import VideoCall.Proofs.Call.Absence
import VideoCall.Proofs.Call.Accounts
import VideoCall.Proofs.Call.Attendance
import VideoCall.Proofs.Call.Changes
import VideoCall.Proofs.Call.Convergence
import VideoCall.Proofs.Call.Depiction
import VideoCall.Proofs.Call.Dialing
import VideoCall.Proofs.Call.Effects
import VideoCall.Proofs.Call.Evolution
import VideoCall.Proofs.Call.Gauges
import VideoCall.Proofs.Call.Isolation
import VideoCall.Proofs.Call.Legs
import VideoCall.Proofs.Call.Lines
import VideoCall.Proofs.Call.Metering
import VideoCall.Proofs.Call.Moves
import VideoCall.Proofs.Call.Muting
import VideoCall.Proofs.Call.OffMesh
import VideoCall.Proofs.Call.OffTraffic
import VideoCall.Proofs.Call.Publishing
import VideoCall.Proofs.Call.Recording
import VideoCall.Proofs.Call.Release
import VideoCall.Proofs.Call.Rosters
import VideoCall.Proofs.Call.Scope
import VideoCall.Proofs.Call.Settling
import VideoCall.Proofs.Call.StaleReports
import VideoCall.Proofs.Call.Supply
import VideoCall.Proofs.Call.Tallies
import VideoCall.Proofs.Call.Traffic
import VideoCall.Proofs.Call.Wiring
import VideoCall.Proofs.Gallery.Announcing
import VideoCall.Proofs.Gallery.Arrival
import VideoCall.Proofs.Gallery.Captures
import VideoCall.Proofs.Gallery.Closing
import VideoCall.Proofs.Gallery.Connections
import VideoCall.Proofs.Gallery.Consistency
import VideoCall.Proofs.Gallery.Departure
import VideoCall.Proofs.Gallery.Describing
import VideoCall.Proofs.Gallery.Effects
import VideoCall.Proofs.Gallery.Findings
import VideoCall.Proofs.Gallery.Gauge
import VideoCall.Proofs.Gallery.Grouping
import VideoCall.Proofs.Gallery.Hiding
import VideoCall.Proofs.Gallery.Independence
import VideoCall.Proofs.Gallery.Ledger
import VideoCall.Proofs.Gallery.Order
import VideoCall.Proofs.Gallery.Recall
import VideoCall.Proofs.Gallery.Seating
import VideoCall.Proofs.Gallery.Sharing
import VideoCall.Proofs.Gallery.Stopping
import VideoCall.Proofs.Json.Formats
import VideoCall.Proofs.Json.Nodes
import VideoCall.Proofs.Json.Numerals
import VideoCall.Proofs.Json.Reading
import VideoCall.Proofs.Json.Scanning
import VideoCall.Proofs.Json.Sorting
import VideoCall.Proofs.Json.Steadiness
import VideoCall.Proofs.Json.Values
import VideoCall.Proofs.Media.Ledger
import VideoCall.Proofs.Media.Lineage
import VideoCall.Proofs.Media.Sharing
import VideoCall.Proofs.Membership
import VideoCall.Proofs.Metric
import VideoCall.Proofs.Outcome
import VideoCall.Proofs.Peer.Mesh
import VideoCall.Proofs.Peer.Passages
import VideoCall.Proofs.Peer.Phases
import VideoCall.Proofs.Peer.Supply
import VideoCall.Proofs.Recorder.Addresses
import VideoCall.Proofs.Recorder.Gauge
import VideoCall.Proofs.Recorder.Legs
import VideoCall.Proofs.Recorder.Sessions
import VideoCall.Proofs.Relay.Reading
import VideoCall.Proofs.Result
import VideoCall.Proofs.Settings
import VideoCall.Proofs.Text.Blank
import VideoCall.Proofs.Text.Numeral
import VideoCall.Proofs.Wire.Agreement
import VideoCall.Proofs.Wire.Delivery
import VideoCall.Proofs.Wire.Payloads
import VideoCall.Recorder.History
import VideoCall.Recorder.Join
import VideoCall.Recorder.Session
import VideoCall.Relay.Link
import VideoCall.Settings
import VideoCall.Table
import VideoCall.Text.Base64
import VideoCall.Text.Blank
import VideoCall.Text.Hex
import VideoCall.Text.Numeral
import VideoCall.Text.Quoted
import VideoCall.Text.Unprintable
import VideoCall.Wire.Incoming
import VideoCall.Wire.Outgoing
import VideoCall.Wire.Payload

import VideoCall.Peer.Report

/-!
# The phases of a peer connection

A connection is created, negotiates, and is connected; negotiation may start again. Once it is
closed it stays closed.

## Main definitions

* `Peer.Phase` : the phases.
* `Peer.Phase.after` : the phase after a report.
-/

namespace VideoCall.Peer

/-- How far a connection is. -/
inductive Phase
  | created
  | signaling
  | connected
  | closed
  deriving DecidableEq

namespace Phase

/-- The name of a phase. -/
def name : Phase → String
  | created => "created"
  | signaling => "signaling"
  | connected => "connected"
  | closed => "closed"

/-- The phase after a report. -/
def after : Phase → Report → Phase
  | closed, _ => closed
  | _, .failed _ => closed
  | _, .closed => closed
  | created, .signal _ => signaling
  | connected, .renegotiating => signaling
  | _, .connected => connected
  | p, _ => p

/-- The phases after each of several reports in a row. -/
def trail : Phase → List Report → List Phase
  | _, [] => []
  | p, r :: rs => p.after r :: (p.after r).trail rs

/-- The phase after an envelope came in from the other side. -/
def afterSignal : Phase → Phase
  | created => signaling
  | p => p

/-- Only a failure or the end closes a connection. -/
theorem after_ne_closed {p : Phase} {r : Report} (hp : p ≠ closed) (hfailed : ∀ e, r ≠ .failed e)
    (hclosed : r ≠ .closed) : p.after r ≠ closed := by
  cases p <;> cases r <;> simp_all [after]

theorem afterSignal_ne_closed {p : Phase} (hp : p ≠ closed) : p.afterSignal ≠ closed := by
  cases p <;> simp_all [afterSignal]

end Phase

end VideoCall.Peer

import VideoCall.Call.Reaction

/-!
# The desk of a call

Inputs for a call wait at its desk until the call comes to deal with them, which it does in rounds.
In a round it takes what waits in this order: the wish to cancel, the link to the relay, the
connections, the recording service, the intents in the mailbox, and last the deadline of a dial. In
each kind it is first come, first served. A round has a limit: after a stint of inputs the call
leaves the rest for the next round.

The mailbox has a limited capacity. Intents beyond it stand in line for a place and move up only
when a round is over, so that a deadline that has come passes before them. A reply of the recording
service is brought by a messenger of its own: one who sets out when the call is already awake
arrives after the round.

The call ends when it is cancelled, and when the participant has let go of it and waits for nothing.

## Main definitions

* `Call.Desk` : a call, the time, and what waits for the call.
* `Call.Desk.ask`, `Call.Desk.hear`, `Call.Desk.note`, `Call.Desk.get` : an input of each kind is
  put in.
* `Call.Desk.next?` : the input that the call takes next.
* `Call.Desk.round` : the call deals with what waits, once over.
* `Call.Desk.settle`, `Call.Desk.pass` : the call deals with all that waits.
-/

namespace VideoCall.Call

open Outcome Peer Wire

/-- The receiving end of the link to the relay. -/
inductive LinkEnd
  | isOpen
  /-- The other side let go, and the call does not know yet. -/
  | closing
  | closed
  deriving DecidableEq

/-- A call, the time, and what waits for the call. -/
structure Desk where
  call : Call
  /-- The time, in milliseconds. -/
  clock : Nat
  /-- How many intents can wait in the mailbox. -/
  capacity : Nat
  running : Bool
  cancelled : Bool
  link : LinkEnd
  /-- Whether the participant has let go of the call. -/
  released : Bool
  /-- How many intents were numbered. -/
  asked : Nat
  /-- Whether the call is about to begin a round. -/
  awake : Bool
  relay : List Relay.Event
  reports : List (Nat × Key × Report)
  replies : List (Nat × Except Recorder.JoinError Signal)
  /-- The replies that arrive after the round that the call is about to begin. -/
  laterReplies : List (Nat × Except Recorder.JoinError Signal)
  mailbox : List (Nat × Intent)
  /-- The intents that stand in line for a place in the mailbox. -/
  queue : List (Nat × Intent)

namespace Desk

/-- The most inputs that the call deals with in one round. -/
def stint : Nat := 128

/-- A call that nothing has happened to, and nothing waits for. -/
def fresh (call : Call) (capacity : Nat) : Desk where
  call := call
  clock := 0
  capacity := capacity
  running := true
  cancelled := false
  link := .isOpen
  released := false
  asked := 0
  awake := false
  relay := []
  reports := []
  replies := []
  laterReplies := []
  mailbox := []
  queue := []

variable (d : Desk)

/-- Whether the participant waits for something: for the answer to a dial or to an intent in the
mailbox, or for a place in it. -/
def awaited : Bool :=
  d.call.pending.isSome || d.mailbox.any (fun (_, i) => i.needsAnswer) || !d.queue.isEmpty

/-- Nobody holds on to the call: the participant has let go of it and waits for nothing. -/
def abandoned : Bool := d.released && !d.awaited

/-- Whether the deadline of the pending dial is not after the given time. -/
def overdue (time : Nat) : Bool := d.call.pending.any fun p => p.deadline ≤ time

/-! ### Putting in -/

/-- Whether events of the relay still arrive. -/
def listens : Bool := d.running && d.link = .isOpen

/-- An event of the relay is put in. -/
def hear (e : Relay.Event) : Desk :=
  if d.listens then { d with relay := d.relay ++ [e], awake := true } else d

/-- The relay lets go of the link. -/
def hangLink : Desk := if d.link = .isOpen then { d with link := .closing, awake := true } else d

/-- The relay takes no more messages. -/
def deafen : Desk := { d with call := { d.call with outboundOpen := false } }

/-- The report of a connection is put in. -/
def note (line : Nat) (key : Key) (r : Report) : Desk :=
  if d.running then { d with reports := d.reports ++ [(line, key, r)], awake := true } else d

/-- A reply of the recording service is put in. -/
def get (session : Nat) (result : Except Recorder.JoinError Signal) : Desk :=
  if !d.running then d
  else if d.awake then { d with laterReplies := d.laterReplies ++ [(session, result)] }
  else { d with replies := d.replies ++ [(session, result)] }

/-- Those who stand in line move up into the mailbox, as far as there is room. -/
def moveUp : Desk :=
  let room := d.capacity - d.mailbox.length
  { d with mailbox := d.mailbox ++ d.queue.take room, queue := d.queue.drop room }

/-- An intent is put in, under the next number. Whoever asks a call that is over is told so. -/
def ask (i : Intent) : Outcome Desk :=
  let d' := { d with asked := d.asked + 1 }
  if d.running then pure { d' with queue := d.queue ++ [(d.asked, i)], awake := true }.moveUp
  else do
    emit (.answered d.asked (.failed .ended))
    return d'

/-- The call is to end. -/
def cancel : Desk := { d with cancelled := true, awake := true }

/-- The participant lets go of the call. -/
def letGo : Desk :=
  let d := { d with released := true }
  { d with awake := d.awake || d.abandoned }

/-- Other refusals of the media stack. -/
def setRefusals (r : Refusals) : Desk :=
  { d with call := { d.call with board := { d.call.board with refusals := r } } }

/-- Time goes by. -/
def advance (ms : Nat) : Desk := { d with clock := d.clock + ms }

/-! ### The end -/

/-- Answers to all intents that wait when the call ends. Who asked for no more than a place in the
mailbox has got it there. -/
def turnAway : Outcome Unit :=
  emitAll
    (d.mailbox.map
      (fun (ticket, i) => .answered ticket (if i.needsAnswer then .failed .ended else .done))
      ++ d.queue.map fun (ticket, _) => .answered ticket (.failed .ended))

/-- The call ends, and nothing waits any more. -/
def finish : Outcome Desk := do
  let call ← d.call.shutDown
  d.turnAway
  return { d with
    call := call
    running := false
    link := if d.link = .isOpen then .isOpen else .closed
    relay := []
    reports := []
    replies := []
    laterReplies := []
    mailbox := []
    queue := [] }

/-! ### Rounds -/

/-- The input that the call takes next, and the desk without it. The deadline of a dial has come if
it is not after the given time. -/
def next? (due : Nat) : Option (Input × Desk) :=
  match d.relay with
  | e :: relay => some (.relay e, { d with relay := relay })
  | [] =>
    if d.link = .closing then some (.relay .disconnected, { d with link := .closed })
    else
      match d.reports with
      | (line, key, r) :: reports => some (.report line key r, { d with reports := reports })
      | [] =>
        match d.replies with
        | (session, result) :: replies =>
          some (.reply session result, { d with replies := replies })
        | [] =>
          match d.mailbox with
          | (ticket, i) :: mailbox => some (.intent ticket i, { d with mailbox := mailbox })
          | [] => if d.overdue due then some (.deadline, d) else none

/-- The call deals with a number of inputs at most. When none is left, a call that is `alone` ends.
When it has had its number of inputs, it stays awake for another round. -/
def deal (due : Nat) (alone : Bool) : Nat → Desk → Outcome Desk
  | 0, d => pure { d with awake := true }
  | n + 1, d =>
    match d.next? due with
    | some (i, d) => do
      let call ← d.call.react d.clock i
      deal due alone n { d with call := call }
    | none => if alone then d.finish else pure d

/-- The call deals with what waits once over. -/
def round (due : Nat) : Outcome Desk :=
  if !d.running then pure d
  else if d.cancelled then d.finish
  else deal due d.abandoned stint { d with awake := false }

/-- What happens between two rounds: the later replies arrive, and intents move up. -/
def interlude : Desk := { d with replies := d.replies ++ d.laterReplies, laterReplies := [] }.moveUp

/-- Several rounds. -/
def rounds (due : Nat) : Nat → Desk → Outcome Desk
  | 0, d => pure d
  | n + 1, d => do
    let d ← d.round due
    rounds due n d.interlude

/-- How many rounds are enough: one for each input, one for a deadline, and one to see that nobody
holds on to the call. -/
def enough : Nat :=
  d.relay.length + d.reports.length + d.replies.length + d.laterReplies.length + d.mailbox.length
    + d.queue.length + 3

/-- The call deals with all that waits, and sleeps again. -/
def settle : Outcome Desk := do
  let d ← rounds d.clock d.enough d
  return { d with awake := false }

/-- Rounds until the call has dealt with all that waits, or is tired after a stint and no messenger
comes to call it back. -/
def roundsUntilTired (due : Nat) : Nat → Desk → Outcome Desk
  | 0, d => pure d
  | n + 1, d => do
    let d ← d.round due
    if d.awake && d.laterReplies.isEmpty then return d.interlude
    else roundsUntilTired due n d.interlude

/-- Time goes by while inputs are being put in. The call deals with what was put in before at the
new time, until it is tired. A deadline that came meanwhile only wakes it, and has to wait for what
is put in next. -/
def pass (ms : Nat) : Outcome Desk := do
  let d ← roundsUntilTired d.clock d.enough (d.advance ms)
  return { d with awake := d.running && (d.awake || d.overdue d.clock) }

/-! ### What the relay gets -/

/-- The messages that the relay gets of those sent since it last looked. It gets none once it takes
no more. -/
def delivered (es : List Effect) : List Envelope :=
  if d.call.outboundOpen then Effect.messages es else []

end Desk

end VideoCall.Call

import VideoCall.Call.Desk.History
import VideoCall.Proofs.Call.Turns

/-!
# Lines at a desk

The inputs of each kind stand in a line of their own: they are dealt with in the order in which they
were put in. Whoever is taken next stands first in a line, and whoever is put in stands last, also
where part of a line waits elsewhere: a reply on its way, or an intent that has no place in the
mailbox yet. The end of the link stands in the line of the relay. Only a deadline stands in no line.

## Main definitions

* `Call.Kind`, `Call.Kind.among` : the kinds of inputs, and the inputs of a kind among others.
* `Call.Desk.line` : the line of a kind.
* `Call.Desk.Takes` : how the call comes by its next input.
* `Call.Desk.accepts`, `Call.Desk.accepted` : the inputs that changes put in.
* `Call.Desk.Keeps` : what changes leave alone in which the call deals with nothing.

## Main results

* `Call.Desk.takes_of_next?` : this is how the call comes by its next input.
* `Call.Desk.Takes.line_eq` : it stood first in its line.
* `Call.Desk.line_apply` : what is put in stands last.
-/

namespace VideoCall.Call

open Outcome Peer Wire

/-- The call, when the media stack refuses other things. -/
def under (c : Call) (r : Refusals) : Call := { c with board := { c.board with refusals := r } }

/-! ### Kinds -/

/-- The kinds of inputs that stand in a line. -/
inductive Kind
  | relay
  | report
  | reply
  | intent
  deriving DecidableEq

/-- The kind of an input. A deadline stands in no line. -/
def Input.kind? : Input → Option Kind
  | .relay _ => some .relay
  | .report _ _ _ => some .report
  | .reply _ _ => some .reply
  | .intent _ _ => some .intent
  | .deadline => none

/-- The inputs of a kind among others, in order. -/
def Kind.among (k : Kind) (is : List Input) : List Input := is.filter fun i => i.kind? = some k

@[simp]
theorem Kind.among_append (k : Kind) (is js : List Input) :
    k.among (is ++ js) = k.among is ++ k.among js :=
  List.filter_append _ _

namespace Desk

/-- The line of a kind: its inputs, in the order in which the call will take them. -/
def line (d : Desk) : Kind → List Input
  | .relay => d.relay.map .relay ++ if d.link = .closing then [.relay .disconnected] else []
  | .report => d.reports.map fun (line, key, r) => .report line key r
  | .reply => (d.replies ++ d.laterReplies).map fun (session, result) => .reply session result
  | .intent => (d.mailbox ++ d.queue).map fun (ticket, i) => .intent ticket i

/-! ### Taking -/

/-- Nobody stands in a line but those who wait elsewhere. -/
structure Idle (d : Desk) : Prop where
  relay : d.relay = []
  link : d.link ≠ .closing
  reports : d.reports = []
  replies : d.replies = []
  mailbox : d.mailbox = []

/-- The call takes an input: the first of a line, or, if nobody is there, the deadline that has
come. -/
inductive Takes (due : Nat) (d : Desk) : Input → Desk → Prop
  | relay {e : Relay.Event} {relay : List Relay.Event} (h : d.relay = e :: relay) :
      Takes due d (.relay e) { d with relay := relay }
  | lost (h : d.relay = []) (hlink : d.link = .closing) :
      Takes due d (.relay .disconnected) { d with link := .closed }
  | report {line : Nat} {key : Key} {r : Report} {reports : List (Nat × Key × Report)}
      (h : d.reports = (line, key, r) :: reports) :
      Takes due d (.report line key r) { d with reports := reports }
  | reply {session : Nat} {result : Except Recorder.JoinError Signal}
      {replies : List (Nat × Except Recorder.JoinError Signal)}
      (h : d.replies = (session, result) :: replies) :
      Takes due d (.reply session result) { d with replies := replies }
  | intent {ticket : Nat} {i : Intent} {mailbox : List (Nat × Intent)}
      (h : d.mailbox = (ticket, i) :: mailbox) :
      Takes due d (.intent ticket i) { d with mailbox := mailbox }
  | deadline (h : d.overdue due = true) (hidle : d.Idle) : Takes due d .deadline d

variable {d d' : Desk} {due : Nat} {i : Input}

theorem takes_of_next? (h : d.next? due = some (i, d')) : Takes due d i d' := by
  unfold next? at h
  split at h
  · rename_i e relay hrelay
    cases h
    exact .relay hrelay
  · rename_i hrelay
    split at h
    · rename_i hlink
      cases h
      exact .lost hrelay hlink
    · rename_i hlink
      split at h
      · rename_i line key r reports hreports
        cases h
        exact .report hreports
      · rename_i hreports
        split at h
        · rename_i session result replies hreplies
          cases h
          exact .reply hreplies
        · rename_i hreplies
          split at h
          · rename_i ticket i mailbox hmailbox
            cases h
            exact .intent hmailbox
          · rename_i hmailbox
            split at h
            · rename_i hdue
              cases h
              exact .deadline hdue ⟨hrelay, hlink, hreports, hreplies, hmailbox⟩
            · cases h

/-- Where the call takes nothing, nobody is there, and no deadline has come. -/
theorem of_next?_eq_none (h : d.next? due = none) : d.Idle ∧ d.overdue due = false := by
  unfold next? at h
  split at h
  · cases h
  · rename_i hrelay
    split at h
    · cases h
    · rename_i hlink
      repeat' split at h
      any_goals cases h
      rename_i hreports _ hreplies _ hmailbox hdue
      exact ⟨⟨hrelay, hlink, hreports, hreplies, hmailbox⟩, Bool.eq_false_iff.2 hdue⟩

/-- Whoever is taken stood first in the line, and the other lines are as they were. -/
theorem Takes.line_eq (h : Takes due d i d') (k : Kind) : d.line k = k.among [i] ++ d'.line k := by
  cases h with
  | lost h hlink =>
    cases k with
    | relay =>
      unfold line
      rw [h, if_pos hlink]
      rfl
    | _ => rfl
  | deadline _ _ => rfl
  | _ h =>
    cases k with
    | _ =>
      first
      | rfl
      | unfold line
        rw [h]
        rfl

/-- A deadline that is over is that of the dial that is pending. -/
theorem pending_of_overdue (h : d.overdue due = true) :
    ∃ p, d.call.pending = some p ∧ p.deadline ≤ due := by
  obtain ⟨p, hp, hdue⟩ := (Option.any_eq_true _ _).1 h
  exact ⟨p, hp, of_decide_eq_true hdue⟩

theorem Takes.pending_of_deadline (h : Takes due d .deadline d') :
    ∃ p, d.call.pending = some p ∧ p.deadline ≤ due := by
  cases h with
  | deadline h _ => exact pending_of_overdue h

/-- Only the lines change when an input is taken. -/
theorem Takes.frame (h : Takes due d i d') :
    d' = { d with
      relay := d'.relay
      link := d'.link
      reports := d'.reports
      replies := d'.replies
      mailbox := d'.mailbox } := by
  cases h <;> rfl

/-! ### Putting in -/

/-- Those who move up into the mailbox keep their places in the line. -/
@[simp]
theorem line_moveUp (d : Desk) (k : Kind) : d.moveUp.line k = d.line k := by
  cases k with
  | intent =>
    unfold moveUp line
    dsimp only
    rw [List.append_assoc, List.take_append_drop]
  | _ => rfl

/-- Replies that arrive keep their places in the line, too. -/
@[simp]
theorem line_interlude (d : Desk) (k : Kind) : d.interlude.line k = d.line k := by
  unfold interlude
  rw [line_moveUp]
  cases k with
  | reply =>
    unfold line
    dsimp only
    rw [List.append_nil]
  | _ => rfl

/-- The inputs that a change puts in. The end of the link is one of them. -/
def accepts (d : Desk) : Change → List Input
  | .hear e => if d.listens then [.relay e] else []
  | .hangLink => if d.listens then [.relay .disconnected] else []
  | .note line key r => if d.running then [.report line key r] else []
  | .get session result => if d.running then [.reply session result] else []
  | .ask i => if d.running then [.intent d.asked i] else []
  | _ => []

/-- The inputs that several changes put in, in order. -/
def accepted (d : Desk) : List Change → List Input
  | [] => []
  | change :: changes => d.accepts change ++ (d.apply change).value.accepted changes

/-- A change in which the call deals with nothing, and the relay goes on taking messages. -/
def Change.isQuiet : Change → Bool
  | .deafen => false
  | .pass _ => false
  | .settle => false
  | _ => true

/-- Nothing more comes from the relay once the end of the link stands in its line. -/
theorem link_ne_closing (h : d.listens = true) : d.link ≠ .closing := by
  intro hlink
  rw [listens, hlink, Bool.and_eq_true] at h
  exact absurd (of_decide_eq_true h.2) LinkEnd.noConfusion

/-- A reply is on its way only while the call is about to begin a round. -/
def Prompt (d : Desk) : Prop := d.awake = false → d.laterReplies = []

/-- What is put in stands last in its line, and the other lines are as they were. -/
theorem line_apply (hrunning : d.running = true) (hprompt : d.Prompt) {change : Change}
    (hquiet : change.isQuiet = true) (k : Kind) :
    (d.apply change).value.line k = d.line k ++ k.among (d.accepts change) := by
  cases change with
  | hear e =>
    rw [apply, value_pure, hear, accepts]
    split
    · rename_i hlistens
      cases k <;> simp [line, link_ne_closing hlistens, Kind.among, Input.kind?]
    · exact (List.append_nil _).symm
  | hangLink =>
    rw [apply, value_pure, hangLink, accepts, listens, hrunning, Bool.true_and]
    by_cases hlink : d.link = .isOpen <;> cases k <;>
      simp [line, hlink, Kind.among, Input.kind?]
  | note line key r =>
    rw [apply, value_pure, note, accepts, if_pos hrunning, if_pos hrunning]
    cases k <;> simp [Desk.line, Kind.among, Input.kind?]
  | get session result =>
    rw [apply, value_pure, get, accepts, if_pos hrunning, hrunning]
    cases hawake : d.awake with
    | false => cases k <;> simp [line, hprompt hawake, Kind.among, Input.kind?]
    | true => cases k <;> simp [line, Kind.among, Input.kind?]
  | ask i =>
    rw [apply, ask, accepts, if_pos hrunning, if_pos hrunning, value_pure, line_moveUp]
    cases k <;> simp [line, Kind.among, Input.kind?]
  | deafen => cases hquiet
  | pass ms => cases hquiet
  | settle => cases hquiet
  | _ => exact (List.append_nil _).symm

/-- How many intents a change numbers. -/
def Change.asks : Change → Nat
  | .ask _ => 1
  | _ => 0

/-- What is as before after a change in which the call deals with nothing. -/
structure Keeps (d : Desk) (change : Change) (d' : Desk) : Prop where
  running : d'.running = d.running
  /-- The media stack may refuse other things. -/
  call : d'.call = d.call.under d'.call.board.refusals
  clock_le : d.clock ≤ d'.clock
  asked : d'.asked = d.asked + change.asks

theorem keeps_apply {change : Change} (hquiet : change.isQuiet = true) :
    Keeps d change (d.apply change).value := by
  cases change with
  | deafen => cases hquiet
  | pass ms => cases hquiet
  | settle => cases hquiet
  | advance ms => exact ⟨rfl, rfl, Nat.le_add_right _ _, rfl⟩
  | ask i =>
    rw [apply, ask]
    split <;> exact ⟨rfl, rfl, Nat.le_refl _, rfl⟩
  | _ =>
    simp only [apply, value_pure, hear, hangLink, note, get]
    repeat' split
    all_goals exact ⟨rfl, rfl, Nat.le_refl _, rfl⟩

/-- An intent goes by the number that it has. -/
theorem filterMap_ticket?_accepts (hrunning : d.running = true) (change : Change) :
    (d.accepts change).filterMap Input.ticket? = List.range' d.asked change.asks := by
  cases change with
  | ask i =>
    rw [accepts, if_pos hrunning]
    rfl
  | _ =>
    simp only [accepts]
    repeat' split
    all_goals rfl

/-- A call that is over hears nothing. -/
theorem accepts_of_over (hover : d.running = false) (change : Change) : d.accepts change = [] := by
  cases change <;> simp [accepts, listens, hover]

/-- Whoever asks a call that is over is told so at once; otherwise nothing happens yet. -/
theorem effects_apply {change : Change} (hquiet : change.isQuiet = true) :
    (d.apply change).effects = if d.running then []
      else (List.range' d.asked change.asks).map fun t => .answered t (.failed .ended) := by
  cases change with
  | deafen => cases hquiet
  | pass ms => cases hquiet
  | settle => cases hquiet
  | ask i =>
    rw [apply, ask]
    split <;> rfl
  | _ => exact (ite_self _).symm

end Desk

end VideoCall.Call

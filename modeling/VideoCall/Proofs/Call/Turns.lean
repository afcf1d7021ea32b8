import Mathlib.Data.List.Nodup
import VideoCall.Proofs.Call.Scope

/-!
# What moments mean for dials

A dial waits for the roster. It is pending until a roster is admitted, its deadline comes, a newer
dial or a hang-up comes in between, or the call ends; each of these gives it an answer of its own.
No other moment has anything to do with dials.

Every intent goes by a number, its ticket, and so do the answers.

## Main definitions

* `Call.tickets`, `Call.dials` : the intents, and the dials, that moments bring.
* `Call.Outlook` : what matters of a call for dials.
* `Call.Turn` : what a moment means for dials.
* `Call.Cause` : how a pending dial comes by its answer.

## Main results

* `Call.turn_meet` : what every moment means for dials.
* `Call.Turn.cause` : the pending dial gets no answer without a cause.
-/

namespace VideoCall.Call

open Outcome Peer Wire Media

/-! ### Tickets and dials -/

/-- The ticket of an input that is an intent. -/
def Input.ticket? : Input → Option Nat
  | .intent ticket _ => some ticket
  | _ => none

/-- The dial that an input is, with the time at which it fails. -/
def Input.dial? (deadline : Nat) : Input → Option PendingDial
  | .intent ticket (.dial _) => some ⟨ticket, deadline⟩
  | _ => none

/-- The ticket of the intent that a moment brings. -/
def Moment.ticket? (m : Moment) : Option Nat := m.input.ticket?

/-- The dial that a moment brings, when dials wait for so long. -/
def Moment.dial? (timeout : Nat) (m : Moment) : Option PendingDial :=
  m.input.dial? (m.now + timeout)

/-- The tickets of the intents that some moments bring, in order. -/
def tickets (moments : List Moment) : List Nat := moments.filterMap Moment.ticket?

/-- The dials that some moments bring, in order. -/
def dials (timeout : Nat) (moments : List Moment) : List PendingDial :=
  moments.filterMap (Moment.dial? timeout)

theorem Moment.ticket?_eq {m : Moment} {i : Input} (hm : m.input = i) : m.ticket? = i.ticket? :=
  congrArg Input.ticket? hm

theorem Moment.dial?_eq {m : Moment} {i : Input} (hm : m.input = i) (timeout : Nat) :
    m.dial? timeout = i.dial? (m.now + timeout) :=
  congrArg (Input.dial? (m.now + timeout)) hm

theorem Moment.ticket?_of_dial? {timeout : Nat} {m : Moment} {d : PendingDial}
    (h : m.dial? timeout = some d) : m.ticket? = some d.ticket := by
  obtain ⟨now, refusals, i⟩ := m
  cases i with
  | intent ticket j =>
    cases j with
    | dial nickname =>
      obtain rfl := Option.some.inj h
      rfl
    | _ => cases h
  | _ => cases h

theorem tickets_append (before after : List Moment) :
    tickets (before ++ after) = tickets before ++ tickets after :=
  List.filterMap_append

theorem dials_append (timeout : Nat) (before after : List Moment) :
    dials timeout (before ++ after) = dials timeout before ++ dials timeout after :=
  List.filterMap_append

theorem ticket_mem_tickets {timeout : Nat} {moments : List Moment} {d : PendingDial}
    (h : d ∈ dials timeout moments) : d.ticket ∈ tickets moments := by
  obtain ⟨m, hm, hd⟩ := List.mem_filterMap.1 h
  exact List.mem_filterMap.2 ⟨m, hm, Moment.ticket?_of_dial? hd⟩

/-- The tickets of dials are tickets of intents, in the same order. -/
theorem sublist_tickets (timeout : Nat) (moments : List Moment) :
    ((dials timeout moments).map PendingDial.ticket).Sublist (tickets moments) := by
  induction moments with
  | nil => exact .slnil
  | cons m moments ih =>
    unfold dials tickets at ih ⊢
    cases hd : m.dial? timeout with
    | none =>
      rw [List.filterMap_cons_none hd]
      refine ih.trans ?_
      cases ht : m.ticket? with
      | none => rw [List.filterMap_cons_none ht]
      | some t =>
        rw [List.filterMap_cons_some ht]
        exact List.sublist_cons_self _ _
    | some d =>
      rw [List.filterMap_cons_some hd, List.filterMap_cons_some (Moment.ticket?_of_dial? hd),
        List.map_cons]
      exact ih.cons_cons _

/-- A dial goes by its ticket. -/
theorem eq_of_ticket_eq {timeout : Nat} {moments : List Moment} (h : (tickets moments).Nodup)
    {d d' : PendingDial} (hd : d ∈ dials timeout moments) (hd' : d' ∈ dials timeout moments)
    (ht : d.ticket = d'.ticket) : d = d' :=
  List.inj_on_of_nodup_map (h.sublist (sublist_tickets timeout moments)) hd hd' ht

/-! ### What matters for dials -/

/-- What matters of a call for dials. -/
structure Outlook where
  /-- The dial that has no answer yet. -/
  pending : Option PendingDial
  /-- Whether the participant is ready, so that rosters count. -/
  active : Bool
  /-- How long dials wait. -/
  timeout : Nat

/-- What matters of a call for dials. -/
def outlook (c : Call) : Outlook := ⟨c.pending, c.membership.active, c.dialTimeout⟩

/-- The answer to the pending dial, if there is one. -/
def Outlook.settlement (x : Outlook) (a : Answer) : List (Nat × Answer) :=
  (x.pending.map fun p => (p.ticket, a)).toList

theorem Outlook.mem_settlement {x : Outlook} {a b : Answer} {t : Nat} :
    (t, b) ∈ x.settlement a ↔ b = a ∧ ∃ p, x.pending = some p ∧ p.ticket = t := by
  unfold settlement
  cases x.pending with
  | none => simp
  | some p => simp [and_comm, eq_comm]

/-- What a moment means for dials: what matters afterwards, and what is answered. -/
inductive Turn (x : Outlook) (m : Moment) : Outlook → List (Nat × Answer) → Prop
  /-- Nothing. What is answered is the intent itself, which is no dial. -/
  | rest {as : List (Nat × Answer)} (hdial : m.dial? x.timeout = none)
      (has : ∀ t a, (t, a) ∈ as → m.ticket? = some t) : Turn x m x as
  /-- There is a newer dial. -/
  | dial {d : PendingDial} (hdial : m.dial? x.timeout = some d) :
      Turn x m ⟨some d, true, x.timeout⟩ (x.settlement (.failed .dialSuperseded))
  /-- A roster is admitted. -/
  | roster {r : Roster} (hm : m.input = .relay (.message (.roster r))) (hactive : x.active = true) :
      Turn x m ⟨none, x.active, x.timeout⟩ (x.settlement .done)
  /-- The deadline of the pending dial has come. -/
  | deadline (hm : m.input = .deadline) :
      Turn x m ⟨none, false, x.timeout⟩ (x.settlement (.failed (.dialTimeout x.timeout)))
  /-- The participant leaves, and is answered after the dial. -/
  | hangUp {ticket : Nat} (hm : m.input = .intent ticket .hangUp) :
      Turn x m ⟨none, false, x.timeout⟩
        (x.settlement (.failed .dialSuperseded) ++ [(ticket, .done)])

/-! ### Steps that have nothing to do with dials -/

section Steady

variable (c : Call)

theorem outlook_applyRecording (recording : Bool) (url : Option String) :
    (c.applyRecording recording url).value.outlook = c.outlook := by
  unfold applyRecording
  split <;> rfl

theorem outlook_onRelay {e : Relay.Event} (he : ∀ r, e ≠ .message (.roster r)) :
    (c.onRelay e).value.outlook = c.outlook := by
  cases e with
  | connected => rfl
  | disconnected =>
    rw [onRelay]
    split <;> rfl
  | message m =>
    rw [onRelay, onMessage]
    split
    · cases m with
      | roster r => exact absurd rfl (he r)
      | recordOutcome r =>
        rw [onAdmitted]
        split
        · exact c.outlook_applyRecording _ _
        · rfl
      | _ => rfl
    · rfl

theorem outlook_onPeerReport (user : UserId) (r : Report) :
    (c.onPeerReport user r).value.outlook = c.outlook := by
  cases r with
  | muted id =>
    rw [onPeerReport, onMuted]
    split <;> rfl
  | _ => rfl

theorem outlook_onReport (key : Key) (r : Report) :
    (c.onReport key r).value.outlook = c.outlook := by
  cases key with
  | recording => rfl
  | participant user =>
    unfold onReport
    dsimp only
    split
    · rfl
    · rw [outlook_onPeerReport]
      rfl

end Steady

section Answers

/-! What bears on no answer can come before, or after. -/

variable {α β : Type} {o : Outcome α} {f : α → Outcome β} {ps : List Effect.Part}

theorem answers_bind_of_left (h : Emits (Effect.Within ps) o) (hps : .answer ∉ ps) :
    Effect.answers (o >>= f).effects = Effect.answers (f o.value).effects := by
  rw [effects_bind, Effect.answers_append, Effect.answers_eq_nil h hps, List.nil_append]

theorem answers_bind_of_right (h : Emits (Effect.Within ps) (f o.value)) (hps : .answer ∉ ps) :
    Effect.answers (o >>= f).effects = Effect.answers o.effects := by
  rw [effects_bind, Effect.answers_append, Effect.answers_eq_nil h hps, List.append_nil]

end Answers

/-! ### Settling the pending dial -/

section Settle

variable (c : Call) (a : Answer)

theorem answers_settleDial :
    Effect.answers (c.settleDial a).effects = c.outlook.settlement a := by
  unfold settleDial Outlook.settlement outlook
  cases c.pending <;> rfl

theorem outlook_settleDial :
    (c.settleDial a).value.outlook = ⟨none, c.membership.active, c.dialTimeout⟩ := by
  rw [value_settleDial]
  rfl

theorem answers_settleCounted (outcome : DialOutcome) :
    Effect.answers (c.settleCounted outcome a).effects = c.outlook.settlement a := by
  unfold settleCounted
  split
  · rename_i h
    unfold Outlook.settlement outlook
    rw [h]
    rfl
  · exact (answers_bind_of_left (within_count _) (by decide)).trans (c.answers_settleDial a)

theorem outlook_settleCounted (outcome : DialOutcome) :
    (c.settleCounted outcome a).value.outlook = ⟨none, c.membership.active, c.dialTimeout⟩ := by
  rw [value_settleCounted]
  rfl

end Settle

/-! ### Every moment -/

/-- What an outcome means for dials. -/
def TakesTurn (x : Outlook) (m : Moment) (o : Outcome Call) : Prop :=
  Turn x m o.value.outlook (Effect.answers o.effects)

namespace TakesTurn

variable {x : Outlook} {m : Moment} {ps : List Effect.Part}

/-- Nothing is answered before. -/
theorem after {α : Type} {o : Outcome α} {f : α → Outcome Call} (ho : Emits (Effect.Within ps) o)
    (hps : .answer ∉ ps) (h : TakesTurn x m (f o.value)) : TakesTurn x m (o >>= f) := by
  unfold TakesTurn
  rw [answers_bind_of_left ho hps]
  exact h

/-- Nothing happens. -/
theorem stays {c : Call} (hdial : m.dial? c.dialTimeout = none) :
    TakesTurn c.outlook m (pure c) :=
  .rest hdial fun _ _ h => absurd h List.not_mem_nil

/-- Nothing is answered at all, and the outlook is the same. -/
theorem quiet {c : Call} {o : Outcome Call} (ho : Emits (Effect.Within ps) o) (hps : .answer ∉ ps)
    (hdial : m.dial? c.dialTimeout = none) (hsteady : o.value.outlook = c.outlook) :
    TakesTurn c.outlook m o := by
  unfold TakesTurn
  rw [hsteady, Effect.answers_eq_nil ho hps]
  exact .rest hdial fun _ _ h => absurd h List.not_mem_nil

/-- What is answered is the intent itself, after all else. -/
theorem own {c : Call} {α : Type} {o : Outcome α} {next : α → Call} {ticket : Nat} {i : Intent}
    (answer : α → Answer) (ho : Emits (Effect.Within ps) o) (hps : .answer ∉ ps)
    (hm : m.input = .intent ticket i) (hdial : m.dial? c.dialTimeout = none)
    (hsteady : (next o.value).outlook = c.outlook) : TakesTurn c.outlook m
      (o >>= fun a => emit (.answered ticket (answer a)) >>= fun _ => pure (next a)) := by
  have hanswers : Effect.answers
      (o >>= fun a => emit (.answered ticket (answer a)) >>= fun _ => pure (next a)).effects =
        [(ticket, answer o.value)] := answers_bind_of_left ho hps
  unfold TakesTurn
  rw [hanswers, value_bind, value_bind, value_pure, hsteady]
  refine .rest hdial fun t a h => ?_
  obtain ⟨rfl, -⟩ := Prod.mk.inj (List.mem_singleton.1 h)
  exact Moment.ticket?_eq hm

end TakesTurn

section Reactions

variable (c : Call) {m : Moment} {ticket : Nat}

theorem takesTurn_onRoster {r : Roster} (hm : m.input = .relay (.message (.roster r)))
    (hadmits : c.membership.admits (.roster r) = true) :
    TakesTurn c.outlook m (c.onRoster r) := by
  have hsettle : ∀ (c' : Call) recording url, c'.outlook = c.outlook → TakesTurn c.outlook m
      (c'.settleCounted .joined .done >>= fun c => c.applyRecording recording url) := by
    intro c' recording url hc'
    have hanswers := answers_bind_of_right (o := c'.settleCounted .joined .done)
      (f := fun c => c.applyRecording recording url) (within_applyRecording _ _ _) (by decide)
    unfold TakesTurn
    rw [hanswers, answers_settleCounted, value_bind, outlook_applyRecording, outlook_settleCounted,
      ← hc']
    exact .roster hm ((congrArg Outlook.active hc').trans hadmits)
  refine .after (within_notify _ _) (by decide) (.after
    (.forEach (fun c user _ => c.within_connectTo _ user) _) (by decide) (hsettle _ _ _ ?_))
  exact forEach_induction (p := fun c' : Call => c'.outlook = c.outlook) rfl
    fun c' hc' user _ => hc'

theorem takesTurn_dial {nickname : String} (hm : m.input = .intent ticket (.dial nickname)) :
    TakesTurn c.outlook m (c.dial m.now ticket nickname) := by
  have htimeout : (c.settleCounted .superseded (.failed .dialSuperseded)).value.dialTimeout =
      c.dialTimeout := by
    rw [value_settleCounted]
  have houtlook : (c.dial m.now ticket nickname).value.outlook =
      ⟨some ⟨ticket, m.now + c.dialTimeout⟩, true, c.dialTimeout⟩ := by
    rw [← htimeout]
    rfl
  have hready : ∀ c' : Call, Emits (Effect.Within [.relay])
      (c'.send (c'.membership.start nickname).2 >>= fun _ => (pure { c' with
        membership := (c'.membership.start nickname).1
        pending := some ⟨ticket, m.now + c'.dialTimeout⟩ } : Outcome Call)) := fun c' =>
    .bind (c'.within_send _) (.pure _)
  have hanswers : Effect.answers (c.dial m.now ticket nickname).effects =
      c.outlook.settlement (.failed .dialSuperseded) :=
    (answers_bind_of_right (hready _) (by decide)).trans (c.answers_settleCounted _ .superseded)
  unfold TakesTurn
  rw [houtlook, hanswers]
  exact .dial (Moment.dial?_eq hm c.dialTimeout)

theorem takesTurn_hangUp (hm : m.input = .intent ticket .hangUp) :
    TakesTurn c.outlook m (c.onIntent m.now ticket .hangUp) := by
  have hrelease : ∀ c : Call, Emits (Effect.Within
      (.destruction :: .recording :: Effect.Part.change)) (c.release true >>= fun c =>
        publishStreams { c with isInitiator := none } >>= fun _ =>
          pure { c with isInitiator := none }) := fun c =>
    ((c.within_release true).also (.bind (within_publishStreams _) (.pure _))).widen (by decide)
  have hsettled : Effect.answers c.hangUp.effects =
      c.outlook.settlement (.failed .dialSuperseded) :=
    (answers_bind_of_left (c.within_send _) (by decide)).trans
      ((answers_bind_of_right (hrelease _) (by decide)).trans (answers_settleDial _ _))
  have hanswers : Effect.answers (c.onIntent m.now ticket .hangUp).effects =
      c.outlook.settlement (.failed .dialSuperseded) ++ [(ticket, .done)] :=
    (Effect.answers_append _ _).trans (congrArg (· ++ [(ticket, Answer.done)]) hsettled)
  have houtlook : (c.onIntent m.now ticket .hangUp).value.outlook = ⟨none, false, c.dialTimeout⟩ :=
    outlook_settleDial { c with membership := c.membership.stop } (.failed .dialSuperseded)
  unfold TakesTurn
  rw [houtlook, hanswers]
  exact .hangUp hm

theorem takesTurn_onDeadline (hm : m.input = .deadline) :
    TakesTurn c.outlook m c.onDeadline := by
  unfold onDeadline
  split
  · exact .stays (Moment.dial?_eq hm c.dialTimeout)
  · refine .after (within_notify _ _) (by decide) ?_
    unfold TakesTurn
    rw [outlook_settleCounted, answers_settleCounted]
    exact .deadline hm

theorem takesTurn_onIntent {i : Intent} (hm : m.input = .intent ticket i) :
    TakesTurn c.outlook m (c.onIntent m.now ticket i) := by
  have hdial : (∀ nickname, i ≠ .dial nickname) → m.dial? c.dialTimeout = none := by
    intro hi
    rw [Moment.dial?_eq hm]
    cases i with
    | dial nickname => exact absurd rfl (hi nickname)
    | _ => rfl
  cases i with
  | dial nickname => exact c.takesTurn_dial hm
  | hangUp => exact c.takesTurn_hangUp hm
  | toggleRecord =>
    exact .own (fun _ => .done) (c.within_send _) (by decide) hm (hdial fun _ => nofun) rfl
  | addLocal type stream =>
    exact .own (fun p => .installed p.2) (c.within_addLocal type stream) (by decide) hm
      (hdial fun _ => nofun) rfl
  | removeLocal type =>
    exact .own (fun p => .removed p.2) (c.within_removeLocal type) (by decide) hm
      (hdial fun _ => nofun) rfl
  | trackChanged type t =>
    exact .own (fun _ => .done) (within_publishStreams _) (by decide) hm (hdial fun _ => nofun) rfl
  | getStatus =>
    refine .rest (hdial fun _ => nofun) fun t a h => ?_
    obtain ⟨rfl, -⟩ := Prod.mk.inj (List.mem_singleton.1 h)
    exact Moment.ticket?_eq hm

/-- What every moment means for dials. -/
theorem turn_meet (m : Moment) :
    Turn c.outlook m (c.meet m).value.outlook (Effect.answers (c.meet m).effects) := by
  have hwithin := c.within_meet m
  -- what the media stack refuses next is no matter for dials
  obtain ⟨c', hc', hmeet⟩ : ∃ c' : Call, c'.outlook = c.outlook ∧
      c.meet m = c'.react m.now m.input :=
    ⟨{ c with board := { c.board with refusals := m.refusals } }, rfl, rfl⟩
  change TakesTurn c.outlook m (c.meet m)
  rw [hmeet] at hwithin ⊢
  rw [← hc']
  obtain ⟨now, refusals, i⟩ := m
  cases i with
  | relay e =>
    by_cases he : ∃ r, e = .message (.roster r)
    · obtain ⟨r, rfl⟩ := he
      change TakesTurn _ _ (c'.onMessage (.roster r))
      unfold onMessage
      split
      · rename_i hadmits
        exact c'.takesTurn_onRoster rfl hadmits
      · exact .after (within_count _) (by decide) (.stays rfl)
    · refine .quiet hwithin (fun h => ?_) rfl (c'.outlook_onRelay fun r hr => he ⟨r, hr⟩)
      rcases Input.of_answer_mem_parts h with ⟨r, hr⟩ | ⟨_, _, hi⟩ | hi
      · exact he ⟨r, Input.relay.inj hr⟩
      · cases hi
      · cases hi
  | report line key r =>
    refine .quiet hwithin (fun h => ?_) rfl (c'.outlook_onReport key r)
    rcases Input.of_answer_mem_parts h with ⟨_, hi⟩ | ⟨_, _, hi⟩ | hi <;> cases hi
  | reply session result =>
    refine .quiet hwithin (fun h => ?_) rfl rfl
    rcases Input.of_answer_mem_parts h with ⟨_, hi⟩ | ⟨_, _, hi⟩ | hi <;> cases hi
  | intent ticket i => exact c'.takesTurn_onIntent rfl
  | deadline => exact c'.takesTurn_onDeadline rfl

end Reactions

/-! ### Causes -/

/-- How a pending dial comes by its answer. -/
inductive Cause (x : Outlook) (m : Moment) : Answer → Prop
  /-- A roster is admitted. -/
  | roster {r : Roster} (hm : m.input = .relay (.message (.roster r))) (hactive : x.active = true) :
      Cause x m .done
  /-- The deadline has come. -/
  | deadline (hm : m.input = .deadline) : Cause x m (.failed (.dialTimeout x.timeout))
  /-- There is a newer dial. -/
  | newer {d : PendingDial} (hm : m.dial? x.timeout = some d) : Cause x m (.failed .dialSuperseded)
  /-- The participant leaves. -/
  | hangUp {ticket : Nat} (hm : m.input = .intent ticket .hangUp) :
      Cause x m (.failed .dialSuperseded)

namespace Turn

variable {x y : Outlook} {m : Moment} {as : List (Nat × Answer)}

/-- What is answered is the intent itself, if it is no dial, or the dial that is pending. -/
theorem cause (h : Turn x m y as) {t : Nat} {a : Answer} (hmem : (t, a) ∈ as) :
    (m.ticket? = some t ∧ m.dial? x.timeout = none) ∨
      ∃ d, x.pending = some d ∧ d.ticket = t ∧ Cause x m a := by
  cases h with
  | rest hdial has => exact Or.inl ⟨has t a hmem, hdial⟩
  | dial hdial =>
    obtain ⟨rfl, d, hd, ht⟩ := Outlook.mem_settlement.1 hmem
    exact Or.inr ⟨d, hd, ht, .newer hdial⟩
  | roster hm hactive =>
    obtain ⟨rfl, d, hd, ht⟩ := Outlook.mem_settlement.1 hmem
    exact Or.inr ⟨d, hd, ht, .roster hm hactive⟩
  | deadline hm =>
    obtain ⟨rfl, d, hd, ht⟩ := Outlook.mem_settlement.1 hmem
    exact Or.inr ⟨d, hd, ht, .deadline hm⟩
  | hangUp hm =>
    rcases List.mem_append.1 hmem with hmem | hmem
    · obtain ⟨rfl, d, hd, ht⟩ := Outlook.mem_settlement.1 hmem
      exact Or.inr ⟨d, hd, ht, .hangUp hm⟩
    · obtain ⟨rfl, -⟩ := Prod.mk.inj (List.mem_singleton.1 hmem)
      exact Or.inl ⟨Moment.ticket?_eq hm, Moment.dial?_eq hm x.timeout⟩

theorem timeout_eq (h : Turn x m y as) : y.timeout = x.timeout := by
  cases h <;> rfl

/-- Only a dial makes the participant ready. -/
theorem inactive (h : Turn x m y as) (hx : x.active = false) (hdial : m.dial? x.timeout = none) :
    y.active = false := by
  cases h with
  | rest _ _ => exact hx
  | dial hd => cases hdial.symm.trans hd
  | roster _ _ => exact hx
  | deadline _ => rfl
  | hangUp _ => rfl

end Turn

end VideoCall.Call

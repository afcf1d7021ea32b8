import VideoCall.Proofs.Call.Serving

/-!
# Desks that have settled

A call that settles deals with all that waits. How many rounds it needs can be told in advance: in
each one it deals at least with one input, if there is one, then with a deadline that has come, and
at last it sees that nobody holds on to it. Only the first round may find nobody, because replies
are still on their way or intents have not moved up.

## Main definitions

* `Call.Desk.load` : how many inputs wait.
* `Call.Desk.toDo` : how many rounds are needed at most.
* `Call.Desk.Settled` : nothing is left to do.

## Main results

* `Call.Desk.toDo_round` : every round leaves one less to do.
* `Call.Desk.settled_settle` : a call that settles and still runs has nothing left to do.
* `Call.Desk.heard_settle` : it has dealt with all that was ever put in.
-/

namespace VideoCall.Call.Desk

open Outcome

variable {d d' : Desk} {due : Nat} {i : Input}

/-! ### The load -/

/-- How many inputs wait. -/
def load (d : Desk) : Nat :=
  (d.line .relay).length + (d.line .report).length + (d.line .reply).length
    + (d.line .intent).length

theorem load_congr (h : ∀ k, d'.line k = d.line k) : d'.load = d.load := by
  unfold load
  rw [h, h, h, h]

theorem load_eq_zero_iff : d.load = 0 ↔ ∀ k, d.line k = [] := by
  constructor
  · intro h k
    refine List.eq_nil_of_length_eq_zero ?_
    unfold load at h
    cases k <;> omega
  · intro h
    unfold load
    rw [h, h, h, h]
    rfl

/-- The bound on the rounds counts all inputs but the end of the link. -/
theorem load_add_three : d.load + 3 = d.enough + if d.link = .closing then 1 else 0 := by
  unfold load enough line
  simp only [List.length_append, List.length_map]
  split <;> simp <;> omega

/-- Whoever is taken does not wait any more. -/
theorem Takes.load_eq (h : Takes due d i d') (hi : i ≠ .deadline) : d.load = d'.load + 1 := by
  have hline := fun k => congrArg List.length (h.line_eq k)
  simp only [List.length_append] at hline
  have hone : (Kind.relay.among [i]).length + (Kind.report.among [i]).length +
      (Kind.reply.among [i]).length + (Kind.intent.among [i]).length = 1 := by
    cases i with
    | deadline => exact absurd rfl hi
    | _ => rfl
  unfold load
  rw [hline .relay, hline .report, hline .reply, hline .intent]
  omega

theorem Takes.load_le (h : Takes due d i d') : d'.load ≤ d.load := by
  cases i with
  | deadline =>
    cases h
    exact Nat.le_refl _
  | _ =>
    rw [h.load_eq Input.noConfusion]
    exact Nat.le_succ _

/-! ### Ready desks -/

/-- Whoever waits can be taken, now or after those before them. -/
structure Ready (d : Desk) : Prop where
  laterReplies : d.laterReplies = []
  queue : d.mailbox = [] → d.queue = []

/-- Between two rounds all inputs come to where they can be taken. -/
theorem ready_interlude (hcapacity : 0 < d.capacity) : d.interlude.Ready where
  laterReplies := rfl
  queue hmailbox := by
    obtain ⟨hempty, htake⟩ := List.append_eq_nil_iff.1 hmailbox
    change d.mailbox = [] at hempty
    change d.queue.take (d.capacity - d.mailbox.length) = [] at htake
    change d.queue.drop (d.capacity - d.mailbox.length) = []
    rw [hempty] at htake ⊢
    rcases List.take_eq_nil_iff.1 htake with hzero | hqueue
    · exact absurd hzero (Nat.ne_of_gt hcapacity)
    · rw [hqueue, List.drop_nil]

theorem Ready.load_eq_zero (h : d.Ready) (hidle : d.Idle) : d.load = 0 := by
  refine load_eq_zero_iff.2 fun k => ?_
  cases k with
  | relay => simp [line, hidle.relay, hidle.link]
  | report => simp [line, hidle.reports]
  | reply => simp [line, hidle.replies, h.laterReplies]
  | intent => simp [line, hidle.mailbox, h.queue hidle.mailbox]

/-! ### What no round changes -/

/-- What no round changes. -/
structure Same (d d' : Desk) : Prop where
  capacity : d'.capacity = d.capacity
  cancelled : d'.cancelled = d.cancelled
  clock : d'.clock = d.clock

theorem same_deal (due : Nat) (alone : Bool) (n : Nat) (d : Desk) :
    Same d (deal due alone n d).value := by
  induction n generalizing d with
  | zero => exact ⟨rfl, rfl, rfl⟩
  | succ n ih =>
    unfold deal
    split
    · rename_i i d' hnext
      have hframe := (takes_of_next? hnext).frame
      have hrest := ih { d' with call := (d'.call.react d'.clock i).value }
      exact ⟨hrest.capacity.trans (congrArg Desk.capacity hframe :),
        hrest.cancelled.trans (congrArg Desk.cancelled hframe :),
        hrest.clock.trans (congrArg Desk.clock hframe :)⟩
    · split <;> exact ⟨rfl, rfl, rfl⟩

theorem same_round (due : Nat) (d : Desk) : Same d (d.round due).value.interlude := by
  unfold round
  split
  · exact ⟨rfl, rfl, rfl⟩
  · split
    · exact ⟨rfl, rfl, rfl⟩
    · have h := same_deal due d.abandoned stint { d with awake := false }
      exact ⟨h.capacity, h.cancelled, h.clock⟩

/-- After a round all inputs come to where they can be taken. -/
theorem ready_round (due : Nat) (hcapacity : 0 < d.capacity) :
    (d.round due).value.interlude.Ready :=
  ready_interlude (Nat.lt_of_lt_of_eq hcapacity (same_round due d).capacity.symm)

/-- A call that is over stays so. -/
theorem running_round_of_over (h : d.running = false) :
    (d.round due).value.interlude.running = false := by
  rw [round, h]
  exact h

theorem running_of_rounds {n : Nat} (h : (rounds due n d).value.running = true) :
    d.running = true := by
  induction n generalizing d with
  | zero => exact h
  | succ n ih => exact Bool.of_not_eq_false fun hover =>
      Bool.false_ne_true ((running_round_of_over hover).symm.trans (ih h))

theorem load_finish (d : Desk) : d.finish.value.load = 0 := by
  refine load_eq_zero_iff.2 fun k => ?_
  cases k with
  | relay =>
    simp only [line, finish, value_bind, value_pure]
    split <;> simp
  | _ => rfl

/-- The load does not grow while the call deals with it. -/
theorem load_deal_le (alone : Bool) (n : Nat) (d : Desk) :
    (deal due alone n d).value.load ≤ d.load := by
  induction n generalizing d with
  | zero => exact Nat.le_refl _
  | succ n ih =>
    unfold deal
    split
    · rename_i i d' hnext
      exact Nat.le_trans (ih { d' with call := (d'.call.react d'.clock i).value })
        (takes_of_next? hnext).load_le
    · split
      · exact (load_finish d).symm ▸ Nat.zero_le _
      · exact Nat.le_refl _

theorem load_interlude (d : Desk) : d.interlude.load = d.load := load_congr (line_interlude d)

/-! ### What is left to do -/

/-- How many rounds are needed at most: for the inputs that wait, for a deadline that may come then,
and for the insight that nobody holds on to the call. -/
def toDo (due : Nat) (d : Desk) : Nat :=
  if d.load = 0 then if d.overdue due then 2 else if d.abandoned then 1 else 0 else d.load + 2

theorem toDo_le (due : Nat) (d : Desk) : d.toDo due ≤ d.load + 2 := by
  unfold toDo
  repeat' split
  all_goals omega

/-- Where all inputs are dealt with and no deadline has come, only an abandoned call has to see that
it is. -/
theorem toDo_le_one (hload : d.load = 0) (hdue : d.overdue due = false) : d.toDo due ≤ 1 := by
  unfold toDo
  rw [if_pos hload, hdue, if_neg Bool.false_ne_true]
  split <;> omega

theorem toDo_eq_zero_iff : d.toDo due = 0 ↔
    d.load = 0 ∧ d.overdue due = false ∧ d.abandoned = false := by
  unfold toDo
  by_cases hload : d.load = 0 <;> cases d.overdue due <;> cases d.abandoned <;> simp [hload]

/-- Nobody comes in between where nobody is on the way. -/
theorem Ready.interlude_eq (h : d.Ready) (hidle : d.Idle) : d.interlude = d := by
  obtain ⟨-, -, -, -, hmailbox⟩ := hidle
  have hqueue := h.queue hmailbox
  have hlater := h.laterReplies
  cases d
  simp_all [interlude, moveUp]

theorem next?_of_idle (hidle : d.Idle) (hdue : d.overdue due = false) : d.next? due = none := by
  simp [next?, hidle.relay, hidle.link, hidle.reports, hidle.replies, hidle.mailbox, hdue]

/-- Once the call has dealt with a deadline, no dial is pending. -/
theorem overdue_of_pending_eq_none (h : d.call.pending = none) : d.overdue due = false := by
  rw [overdue, h]
  rfl

theorem pending_react_deadline (c : Call) (now : Nat) :
    (c.react now .deadline).value.pending = none := by
  change c.onDeadline.value.pending = none
  unfold onDeadline
  split
  · assumption
  · exact congrArg Outlook.pending (outlook_settleCounted _ _ _)

/-- A call that waits for the answer to a dial is not abandoned. -/
theorem abandoned_of_overdue (h : d.overdue due = true) : d.abandoned = false := by
  obtain ⟨p, hp, -⟩ := pending_of_overdue h
  simp [abandoned, awaited, hp]

/-! ### One round -/

theorem deal_of_next? {alone : Bool} {n : Nat} (h : d.next? due = some (i, d')) :
    (deal due alone (n + 1) d).value =
      (deal due alone n { d' with call := (d'.call.react d'.clock i).value }).value := by
  rw [deal, h]
  rfl

theorem deal_of_next?_eq_none {alone : Bool} {n : Nat} (h : d.next? due = none) :
    deal due alone (n + 1) d = if alone then d.finish else pure d := by
  rw [deal, h]

/-- In a round the call deals at least with one input, if one can be taken. -/
theorem load_deal_lt (alone : Bool) (n : Nat) (h : d.next? due = some (i, d'))
    (hi : i ≠ .deadline) : (deal due alone (n + 1) d).value.load < d.load := by
  rw [deal_of_next? h, (takes_of_next? h).load_eq hi]
  exact Nat.lt_succ_of_le
    (load_deal_le alone n { d' with call := (d'.call.react d'.clock i).value })

/-- A round without inputs deals with the deadline. -/
theorem value_deal_of_deadline (n : Nat) (hidle : d.Idle)
    (hnext : d.next? due = some (.deadline, d)) :
    (deal due false (n + 2) d).value =
      { d with call := (d.call.react d.clock .deadline).value } := by
  let e : Desk := { d with call := (d.call.react d.clock .deadline).value }
  have he : e.Idle := ⟨hidle.relay, hidle.link, hidle.reports, hidle.replies, hidle.mailbox⟩
  have hdue : e.overdue due = false := overdue_of_pending_eq_none (pending_react_deadline _ _)
  rw [deal_of_next? hnext, deal_of_next?_eq_none (next?_of_idle he hdue)]
  rfl

/-- What a round is, when the call still runs and is not cancelled. A stint is longer than two
inputs. -/
theorem round_eq_deal (hrunning : d.running = true) (hcancelled : d.cancelled = false) :
    d.round due = deal due d.abandoned (126 + 2) { d with awake := false } := by
  rw [round, hrunning, hcancelled]
  rfl

/-- Every round leaves one less to do. -/
theorem toDo_round (hready : d.Ready) (hrunning : d.running = true)
    (hcancelled : d.cancelled = false)
    (hafter : (d.round due).value.interlude.running = true) :
    (d.round due).value.interlude.toDo due ≤ d.toDo due - 1 := by
  let e : Desk := { d with awake := false }
  have he : e.Ready := ⟨hready.laterReplies, hready.queue⟩
  rw [round_eq_deal hrunning hcancelled] at hafter ⊢
  cases hnext : e.next? due with
  | none =>
    obtain ⟨hidle, hdue⟩ := of_next?_eq_none hnext
    rw [deal_of_next?_eq_none hnext] at hafter ⊢
    cases habandoned : d.abandoned with
    | true =>
      rw [habandoned] at hafter
      cases hafter
    | false =>
      rw [if_neg Bool.false_ne_true, value_pure, he.interlude_eq hidle,
        toDo_eq_zero_iff.2 ⟨he.load_eq_zero hidle, hdue, habandoned⟩]
      exact Nat.zero_le _
  | some x =>
    obtain ⟨i, f⟩ := x
    by_cases hi : i = .deadline
    · subst hi
      cases takes_of_next? hnext with
      | deadline hdue hidle =>
        have hload : d.load = 0 := he.load_eq_zero hidle
        have htwo : d.toDo due = 2 := by
          rw [toDo, if_pos hload]
          exact if_pos hdue
        rw [abandoned_of_overdue (d := d) hdue, value_deal_of_deadline 126 hidle hnext, htwo]
        refine toDo_le_one ((load_interlude _).trans hload) ?_
        exact overdue_of_pending_eq_none (pending_react_deadline _ _)
    · have hlt : (deal due d.abandoned (126 + 2) e).value.load < d.load :=
        load_deal_lt d.abandoned 127 hnext hi
      have htoDo : d.toDo due = d.load + 2 := if_neg (Nat.ne_of_gt (Nat.zero_lt_of_lt hlt))
      refine Nat.le_trans (toDo_le due _) ?_
      rw [load_interlude, htoDo]
      exact Nat.succ_le_succ hlt

/-- If the relay let go of the link, the call hears of that in the first round. -/
theorem load_round_le (due : Nat) (hrunning : d.running = true) (hcancelled : d.cancelled = false) :
    (d.round due).value.load + (if d.link = .closing then 1 else 0) ≤ d.load := by
  let e : Desk := { d with awake := false }
  rw [round_eq_deal hrunning hcancelled]
  by_cases hlink : d.link = .closing
  · rw [if_pos hlink]
    cases hnext : e.next? due with
    | none => exact absurd hlink (of_next?_eq_none hnext).1.link
    | some x =>
      obtain ⟨i, f⟩ := x
      refine load_deal_lt (d := e) d.abandoned 127 hnext ?_
      rintro rfl
      cases takes_of_next? hnext with
      | deadline _ hidle => exact hidle.link hlink
  · rw [if_neg hlink]
    exact load_deal_le d.abandoned _ e

/-! ### All rounds -/

theorem Same.trans {d'' : Desk} (h : Same d d') (h' : Same d' d'') : Same d d'' where
  capacity := h'.capacity.trans h.capacity
  cancelled := h'.cancelled.trans h.cancelled
  clock := h'.clock.trans h.clock

theorem same_rounds (due n : Nat) (d : Desk) : Same d (rounds due n d).value := by
  induction n generalizing d with
  | zero => exact ⟨rfl, rfl, rfl⟩
  | succ n ih => exact (same_round due d).trans (ih _)

theorem same_roundsUntilTired (due n : Nat) (d : Desk) :
    Same d (roundsUntilTired due n d).value := by
  induction n generalizing d with
  | zero => exact ⟨rfl, rfl, rfl⟩
  | succ n ih =>
    rw [roundsUntilTired, value_bind]
    split
    · exact same_round due d
    · exact (same_round due d).trans (ih _)

/-- As many rounds as are needed leave nothing to do. -/
theorem toDo_rounds {n : Nat} (hready : d.Ready) (hcapacity : 0 < d.capacity)
    (hcancelled : d.cancelled = false) (hn : d.toDo due ≤ n)
    (hafter : (rounds due n d).value.running = true) : (rounds due n d).value.toDo due = 0 := by
  induction n generalizing d with
  | zero => exact Nat.le_zero.1 hn
  | succ n ih =>
    have hsame := same_round due d
    have hrunning := running_of_rounds (n := n + 1) hafter
    have hless := toDo_round hready hrunning hcancelled (running_of_rounds (n := n) hafter)
    exact ih (ready_round due hcapacity) (hsame.capacity ▸ hcapacity)
      (hsame.cancelled.trans hcancelled) (by omega) hafter

/-- Nothing is left to do: nobody waits, no deadline has come, and there is no reason to end. -/
structure Settled (d : Desk) : Prop where
  lines : ∀ k, d.line k = []
  overdue : d.overdue d.clock = false
  abandoned : d.abandoned = false
  cancelled : d.cancelled = false

/-- A cancelled call ends in the first round. -/
theorem cancelled_of_rounds {n : Nat} (h : (rounds due (n + 1) d).value.running = true) :
    d.cancelled = false := by
  have hround : (d.round due).value.interlude.running = true := running_of_rounds (n := n) h
  have hrunning := running_of_rounds (n := n + 1) h
  refine Bool.of_not_eq_true fun hcancelled => ?_
  rw [round, hrunning, hcancelled] at hround
  cases hround

/-- The rounds in which the call settles leave nothing to do. -/
theorem toDo_enough (hcapacity : 0 < d.capacity)
    (hafter : (rounds d.clock d.enough d).value.running = true) :
    (rounds d.clock d.enough d).value.toDo d.clock = 0 := by
  obtain ⟨n, hn⟩ : ∃ n, d.enough = n + 1 := ⟨_, rfl⟩
  rw [hn] at hafter ⊢
  have hcancelled := cancelled_of_rounds hafter
  have hsame := same_round d.clock d
  -- from the second round on the desk is ready
  change (rounds d.clock n (d.round d.clock).value.interlude).value.toDo d.clock = 0
  refine toDo_rounds (ready_round d.clock hcapacity) (hsame.capacity ▸ hcapacity)
    (hsame.cancelled.trans hcancelled) ?_ hafter
  have hload := load_round_le d.clock (running_of_rounds hafter) hcancelled
  have hall := d.load_add_three
  refine Nat.le_trans (toDo_le _ _) ?_
  rw [load_interlude]
  omega

/-- A call that settles, and that still runs then, has nothing left to do. -/
theorem settled_settle (hcapacity : 0 < d.capacity) (hafter : d.settle.value.running = true) :
    d.settle.value.Settled := by
  obtain ⟨hload, hdue, habandoned⟩ := toDo_eq_zero_iff.1 (toDo_enough hcapacity hafter)
  have hsame := same_rounds d.clock d.enough d
  exact {
    lines := fun k => (by cases k <;> rfl : _ = _).trans (load_eq_zero_iff.1 hload k)
    overdue := by
      change overdue _ (rounds d.clock d.enough d).value.clock = false
      rw [hsame.clock]
      exact hdue
    abandoned := habandoned
    cancelled := hsame.cancelled.trans (cancelled_of_rounds hafter) }

/-! ### Histories -/

theorem capacity_apply (d : Desk) (change : Change) :
    (d.apply change).value.capacity = d.capacity := by
  cases change with
  | pass ms => exact (same_roundsUntilTired d.clock _ (d.advance ms)).capacity
  | settle => exact (same_rounds d.clock _ d).capacity
  | _ =>
    simp only [apply, value_pure, hear, hangLink, note, get, ask]
    repeat' split
    all_goals rfl

theorem accepted_append (d : Desk) (changes changes' : List Change) :
    d.accepted (changes ++ changes') =
      d.accepted changes ++ (d.run changes).value.accepted changes' := by
  induction changes generalizing d with
  | nil => rfl
  | cons change changes ih =>
    rw [List.cons_append, accepted, accepted, ih, List.append_assoc]
    rfl

/-- In every history at whose end a call settles and still runs, it has dealt with all inputs that
were put in, those of each kind in order. -/
theorem heard_settle (hrunning : d.running = true) (hprompt : d.Prompt) (hcapacity : 0 < d.capacity)
    {changes : List Change} (hdeaf : .deafen ∉ changes)
    (hafter : (d.run (changes ++ [.settle])).value.running = true) :
    let o := d.run (changes ++ [.settle])
    ∃ moments, Serving d (d.accepted changes) moments o.value o.effects ∧ o.value.Settled ∧
      ∀ k, k.among (moments.map Moment.input) = d.line k ++ k.among (d.accepted changes) := by
  intro o
  have hvalue : o.value = (d.run changes).value.settle.value := value_forEach_append apply _ _ d
  have hcapacity' : 0 < (d.run changes).value.capacity :=
    forEach_induction (p := fun d : Desk => 0 < d.capacity) hcapacity
      fun d h change _ => (d.capacity_apply change).symm ▸ h
  have hsettled : o.value.Settled := by
    rw [hvalue]
    exact settled_settle hcapacity' (hvalue ▸ hafter)
  have haccepted : d.accepted (changes ++ [.settle]) = d.accepted changes :=
    (d.accepted_append changes _).trans (List.append_nil _)
  have hserves : Serves d (d.accepted (changes ++ [.settle])) o.value o.effects :=
    serves_run hrunning hprompt (by simpa using hdeaf)
  rw [haccepted] at hserves
  obtain ⟨moments, h⟩ := hserves.serving hafter
  refine ⟨moments, h, hsettled, fun k => ?_⟩
  rw [← h.lines, hsettled.lines, List.append_nil]

/-- A reply on its way and an intent without a place in the mailbox are dealt with, too. -/
example :
    let call := Call.fresh (.ofRelay "ws://relay") ⟨"room"⟩ ⟨"me"⟩ (.fresh fun _ _ => false) .none
    let o := (fresh call 1).run [.hear .connected, .ask (.dial "me"), .get 7 (.error (.status 500)),
      .ask .toggleRecord, .hangLink, .settle]
    o.value.running = true ∧ o.value.load = 0 ∧ (Effect.answers o.effects).map Prod.fst = [1] := by
  decide

end VideoCall.Call.Desk

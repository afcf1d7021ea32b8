import VideoCall.Proofs.Call.Dialing
import VideoCall.Proofs.Call.Lines

/-!
# Calls that are served

A desk does nothing to its call but to let it deal with inputs, one at a time, and to shut it down
at the end. So at any time the call is the one that certain moments lead to, and what it did so far
is what these moments do. The moments bring the inputs of each line in order, none is passed over,
and the others still stand in their lines. Once the call is over, whoever was not heard is turned
away, and no intent is forgotten.

Each step keeps this: to take an input, to put one in, to end, and whatever happens between two
rounds.

## Main definitions

* `Call.Timely` : the times of moments at a desk, and what they say of deadlines.
* `Call.Desk.Serving` : the call is served.
* `Call.Desk.Over` : the call is over.

## Main results

* `Call.Desk.Serving.take`, `Call.Desk.Serving.accept`, `Call.Desk.Serving.over_finish` : the steps.
* `Call.Desk.serves_run` : a call is served or over in every history of its desk.
* `Call.Desk.exists_moments` : what happens to a fresh call at a desk is a history of the call.
-/

namespace VideoCall.Call

open Outcome Peer

/-! ### Refusals -/

/-- The end of a call asks nothing of the media stack that could be refused. -/
theorem shutDown_under (c : Call) (r : Refusals) :
    (c.under r).shutDown = ⟨c.shutDown.value.under r, c.shutDown.effects⟩ := by
  have hsettle : (c.under r).settleDial (.failed .ended) =
      ⟨(c.settleDial (.failed .ended)).value.under r, (c.settleDial (.failed .ended)).effects⟩ := by
    have hpending : (c.under r).pending = c.pending := rfl
    unfold settleDial
    rw [hpending]
    cases c.pending <;> rfl
  unfold shutDown
  rw [hsettle]
  rfl

/-! ### Times -/

/-- Moments as they come at a desk: the time does not go back, and a deadline is dealt with only
when it has come. -/
structure Timely (c : Call) (moments : List Moment) (clock : Nat) : Prop where
  ordered : (moments.map Moment.now).Pairwise (· ≤ ·)
  past : ∀ m ∈ moments, m.now ≤ clock
  due : ∀ before m after, moments = before ++ m :: after → m.input = .deadline →
    ∃ p, (c.run before).value.pending = some p ∧ p.deadline ≤ m.now

namespace Timely

variable {c : Call} {moments : List Moment} {clock : Nat}

theorem nil (c : Call) (clock : Nat) : Timely c [] clock where
  ordered := .nil
  past _ hm := absurd hm List.not_mem_nil
  due before m after h := by simp at h

theorem later (h : Timely c moments clock) {clock' : Nat} (hle : clock ≤ clock') :
    Timely c moments clock' :=
  { h with past := fun m hm => Nat.le_trans (h.past m hm) hle }

theorem concat (h : Timely c moments clock) {m : Moment} (hnow : m.now = clock)
    (hdue : m.input = .deadline →
      ∃ p, (c.run moments).value.pending = some p ∧ p.deadline ≤ m.now) :
    Timely c (moments ++ [m]) clock where
  ordered := by
    rw [List.map_append]
    refine List.pairwise_append.2 ⟨h.ordered, List.pairwise_singleton _ _, ?_⟩
    intro t ht t' ht'
    obtain ⟨m', hm', rfl⟩ := List.mem_map.1 ht
    rw [List.mem_singleton.1 ht', hnow]
    exact h.past m' hm'
  past m' hm' := by
    rcases List.mem_append.1 hm' with hm' | hm'
    · exact h.past m' hm'
    · rw [List.mem_singleton.1 hm']
      exact Nat.le_of_eq hnow
  due before m' after heq hm' := by
    rcases List.eq_nil_or_concat after with rfl | ⟨after, last, rfl⟩
    · obtain ⟨rfl, hlast⟩ := List.append_inj' heq rfl
      obtain rfl := List.singleton_inj.1 hlast
      exact hdue hm'
    · have heq' : moments ++ [m] = (before ++ m' :: after) ++ [last] := by simpa using heq
      exact h.due before m' after (List.append_inj' heq' rfl).1 hm'

end Timely

namespace Desk

variable {d₀ d d' : Desk} {accepted : List Input} {moments : List Moment}
  {turned : List (Nat × Answer)} {es : List Effect}

/-! ### Tickets -/

/-- The tickets of the intents that wait. -/
def tickets (d : Desk) : List Nat := (d.mailbox ++ d.queue).map Prod.fst

theorem tickets_eq (d : Desk) : d.tickets = (d.line .intent).filterMap Input.ticket? := by
  unfold tickets line
  rw [List.filterMap_map, ← List.filterMap_eq_map]
  rfl

theorem filterMap_ticket?_among (is : List Input) :
    (Kind.intent.among is).filterMap Input.ticket? = is.filterMap Input.ticket? := by
  unfold Kind.among
  rw [List.filterMap_filter]
  refine List.filterMap_congr fun i _ => ?_
  cases i <;> rfl

/-! ### Turning away -/

/-- Those who are turned away when the call ends, with the answers that they get. -/
def turnedAway (d : Desk) : List (Nat × Answer) :=
  d.mailbox.map (fun x => (x.1, if x.2.needsAnswer then .failed .ended else .done)) ++
    d.queue.map fun x => (x.1, .failed .ended)

theorem effects_turnAway (d : Desk) :
    d.turnAway.effects = d.turnedAway.map fun x => .answered x.1 x.2 := by
  unfold turnAway turnedAway
  rw [effects_emitAll, List.map_append, List.map_map, List.map_map]
  rfl

theorem map_fst_turnedAway (d : Desk) : d.turnedAway.map Prod.fst = d.tickets := by
  unfold turnedAway tickets
  rw [List.map_append, List.map_append, List.map_map, List.map_map]
  rfl

/-- Who is turned away is told that the call is over, or asked for no more than a place in the
mailbox and has it. -/
theorem words_turnedAway {x : Nat × Answer} (hx : x ∈ d.turnedAway) :
    x.2 = .failed .ended ∨
      x.2 = .done ∧ ∃ i, .intent x.1 i ∈ d.line .intent ∧ i.needsAnswer = false := by
  rcases List.mem_append.1 hx with hx | hx
  · obtain ⟨⟨t, i⟩, hmem, rfl⟩ := List.mem_map.1 hx
    cases hi : i.needsAnswer with
    | true => exact Or.inl rfl
    | false =>
      exact Or.inr ⟨rfl, i, List.mem_map_of_mem (List.mem_append_left _ hmem), hi⟩
  · obtain ⟨y, -, rfl⟩ := List.mem_map.1 hx
    exact Or.inl rfl

/-! ### Where a call stands -/

/-- The call is served: it has dealt with some of the inputs, at certain moments, and the others
stand in their lines. -/
structure Serving (d₀ : Desk) (accepted : List Input) (moments : List Moment) (d : Desk)
    (es : List Effect) : Prop where
  running : d.running = true
  /-- The call is the one that the moments lead to, whatever the media stack refuses now. -/
  call : d.call = (d₀.call.run moments).value.under d.call.board.refusals
  effects : es = (d₀.call.run moments).effects
  /-- In each line, first come is first served, and nobody is passed over. -/
  lines : ∀ k, k.among (moments.map Moment.input) ++ d.line k = d₀.line k ++ k.among accepted
  timely : Timely d₀.call moments d.clock
  /-- The intents are numbered in order. -/
  numbered : ∃ n, d.asked = d₀.asked + n ∧
    accepted.filterMap Input.ticket? = List.range' d₀.asked n

/-- The call is over: it was shut down after some moments, and who asked for something and was not
heard was turned away. -/
structure Over (d₀ : Desk) (accepted : List Input) (moments : List Moment)
    (turned : List (Nat × Answer)) (d : Desk) (es : List Effect) : Prop where
  running : d.running = false
  call : d.call = (d₀.call.run moments).value.shutDown.value.under d.call.board.refusals
  effects : es = (d₀.call.run moments).effects ++
    ((d₀.call.run moments).value.shutDown.effects ++ turned.map fun x => .answered x.1 x.2)
  /-- In each line, first come was first served. -/
  lines : ∀ k, k.among (moments.map Moment.input) <+: d₀.line k ++ k.among accepted
  timely : Timely d₀.call moments d.clock
  /-- Who is turned away is told that the call is over, or asked for no more than a place. -/
  words : ∀ x ∈ turned, x.2 = .failed .ended ∨
    x.2 = .done ∧ ∃ i, .intent x.1 i ∈ d₀.line .intent ++ accepted ∧ i.needsAnswer = false
  /-- Each intent was dealt with or turned away, once and in order. -/
  numbered : ∃ n, d.asked = d₀.asked + n ∧
    Call.tickets moments ++ turned.map Prod.fst = d₀.tickets ++ List.range' d₀.asked n

/-- The call is served or over. -/
def Serves (d₀ : Desk) (accepted : List Input) (d : Desk) (es : List Effect) : Prop :=
  (∃ moments, Serving d₀ accepted moments d es) ∨
    ∃ moments turned, Over d₀ accepted moments turned d es

namespace Serving

/-- At the beginning, nothing was dealt with. -/
theorem start (h : d₀.running = true) : Serving d₀ [] [] d₀ [] where
  running := h
  call := rfl
  effects := rfl
  lines _ := (List.append_nil _).symm
  timely := .nil _ _
  numbered := ⟨0, rfl, rfl⟩

/-- Inputs are put in, and the call deals with nothing. -/
theorem accept (h : Serving d₀ accepted moments d es) {is : List Input}
    (hrunning : d'.running = true) (hcall : d'.call = d.call.under d'.call.board.refusals)
    (hlines : ∀ k, d'.line k = d.line k ++ k.among is) (hclock : d.clock ≤ d'.clock) {n : Nat}
    (hasked : d'.asked = d.asked + n)
    (hticket : is.filterMap Input.ticket? = List.range' d.asked n) :
    Serving d₀ (accepted ++ is) moments d' es where
  running := hrunning
  call := by
    rw [hcall, h.call]
    rfl
  effects := h.effects
  lines k := by
    rw [hlines, ← List.append_assoc, h.lines, Kind.among_append, List.append_assoc]
  timely := h.timely.later hclock
  numbered := by
    obtain ⟨n', hn', hticket'⟩ := h.numbered
    refine ⟨n' + n, by omega, ?_⟩
    rw [List.filterMap_append, hticket, hticket', hn', List.range'_append_1]

/-- The call deals with the input that it takes. -/
theorem take (h : Serving d₀ accepted moments d es) {due : Nat} (hdue : due ≤ d.clock) {i : Input}
    (ht : Takes due d i d') :
    let o := d'.call.react d'.clock i
    Serving d₀ accepted (moments ++ [⟨d.clock, d.call.board.refusals, i⟩])
      { d' with call := o.value } (es ++ o.effects) := by
  intro o
  have hcall : d'.call = d.call := (congrArg Desk.call ht.frame :)
  have hclock : d'.clock = d.clock := (congrArg Desk.clock ht.frame :)
  -- the moment finds the refusals that the desk has
  have ho : o = (d₀.call.run moments).value.meet ⟨d.clock, d.call.board.refusals, i⟩ := by
    have hreact : o = react d.call d.clock i := by rw [← hcall, ← hclock]
    exact hreact.trans (congrArg (fun c => react c d.clock i) h.call)
  exact {
    running := (congrArg Desk.running ht.frame :).trans h.running
    call := by
      rw [value_run_concat, ← ho]
      rfl
    effects := by rw [effects_run_concat, ← ho, h.effects]
    lines := fun k => by
      have hline : ({ d' with call := o.value } : Desk).line k = d'.line k := by cases k <;> rfl
      rw [hline, List.map_append, Kind.among_append, List.append_assoc, ← h.lines, ht.line_eq]
      rfl
    timely := by
      change Timely d₀.call _ d'.clock
      rw [hclock]
      refine h.timely.concat rfl ?_
      rintro rfl
      obtain ⟨p, hp, hle⟩ := ht.pending_of_deadline
      exact ⟨p, (congrArg Call.pending h.call).symm.trans hp, Nat.le_trans hle hdue⟩
    numbered := by
      change ∃ n, d'.asked = d₀.asked + n ∧ _
      rw [(congrArg Desk.asked ht.frame :)]
      exact h.numbered }

/-- The tickets of those who were heard and of those who wait, in order. -/
theorem tickets_eq (h : Serving d₀ accepted moments d es) :
    ∃ n, d.asked = d₀.asked + n ∧
      Call.tickets moments ++ d.tickets = d₀.tickets ++ List.range' d₀.asked n := by
  obtain ⟨n, hn, hticket⟩ := h.numbered
  refine ⟨n, hn, ?_⟩
  have hline := congrArg (List.filterMap Input.ticket?) (h.lines .intent)
  rw [List.filterMap_append, List.filterMap_append, filterMap_ticket?_among,
    filterMap_ticket?_among, hticket, List.filterMap_map, ← Desk.tickets_eq,
    ← Desk.tickets_eq] at hline
  exact hline

/-- Whoever waits waited at the beginning, or was put in. -/
theorem mem_of_mem_line (h : Serving d₀ accepted moments d es) {k : Kind} {i : Input}
    (hi : i ∈ d.line k) : i ∈ d₀.line k ++ accepted := by
  have hmem := h.lines k ▸ List.mem_append_right _ hi
  exact (List.mem_append.1 hmem).elim (List.mem_append_left _)
    fun hmem => List.mem_append_right _ (List.mem_filter.1 hmem).1

/-- The call ends. -/
theorem over_finish (h : Serving d₀ accepted moments d es) :
    Over d₀ accepted moments d.turnedAway d.finish.value (es ++ d.finish.effects) := by
  have hshut : d.call.shutDown = ⟨(d₀.call.run moments).value.shutDown.value.under
      d.call.board.refusals, (d₀.call.run moments).value.shutDown.effects⟩ :=
    (congrArg shutDown h.call).trans (shutDown_under _ _)
  obtain ⟨n, hn, htickets⟩ := h.tickets_eq
  exact {
    running := rfl
    call := by
      have hvalue : d.finish.value.call = _ := congrArg Outcome.value hshut
      rw [hvalue]
      rfl
    effects := by
      rw [h.effects, finish, effects_bind, effects_bind, hshut, effects_turnAway]
      exact congrArg _ (congrArg _ (List.append_nil _))
    lines := fun k => by
      rw [← h.lines]
      exact List.prefix_append _ _
    timely := h.timely
    words := fun x hx => (words_turnedAway hx).imp_right fun ⟨hdone, i, hwaits, hi⟩ =>
      ⟨hdone, i, h.mem_of_mem_line hwaits, hi⟩
    numbered := ⟨n, hn, by rw [map_fst_turnedAway, htickets]⟩ }

end Serving

/-- After the end, whoever asks is turned away. -/
theorem Over.refuse (h : Over d₀ accepted moments turned d es) (hrunning : d'.running = false)
    (hcall : d'.call = d.call.under d'.call.board.refusals) (hclock : d.clock ≤ d'.clock) {n : Nat}
    (hasked : d'.asked = d.asked + n) :
    Over d₀ accepted moments
      (turned ++ (List.range' d.asked n).map fun t => (t, .failed .ended)) d'
      (es ++ (List.range' d.asked n).map fun t => .answered t (.failed .ended)) where
  running := hrunning
  call := by
    rw [hcall, h.call]
    rfl
  effects := by
    rw [h.effects, List.append_assoc, List.append_assoc, List.map_append, List.map_map]
    rfl
  lines := h.lines
  timely := h.timely.later hclock
  words x hx := by
    rcases List.mem_append.1 hx with hx | hx
    · exact h.words x hx
    · obtain ⟨t, -, rfl⟩ := List.mem_map.1 hx
      exact Or.inl rfl
  numbered := by
    obtain ⟨n', hn', htickets⟩ := h.numbered
    refine ⟨n' + n, by omega, ?_⟩
    rw [List.map_append, ← List.append_assoc, htickets, hn', List.map_map, ← List.range'_append_1,
      List.append_assoc]
    exact congrArg _ (congrArg _ (List.map_id _))

/-- While the call runs, it is served. -/
theorem Serves.serving (h : Serves d₀ accepted d es) (hrunning : d.running = true) :
    ∃ moments, Serving d₀ accepted moments d es :=
  h.resolve_right fun ⟨_, _, h⟩ => Bool.false_ne_true (h.running.symm.trans hrunning)

/-- Nothing is put in, and the call deals with nothing. -/
theorem Serves.rest (h : Serves d₀ accepted d es) (hrunning : d'.running = d.running)
    (hcall : d'.call = d.call) (hlines : ∀ k, d'.line k = d.line k) (hclock : d.clock ≤ d'.clock)
    (hasked : d'.asked = d.asked) : Serves d₀ accepted d' es := by
  have hunder : d'.call = d.call.under d'.call.board.refusals := by
    rw [hcall]
    rfl
  rcases h with ⟨moments, h⟩ | ⟨moments, turned, h⟩
  · have haccept : Serving d₀ (accepted ++ []) moments d' es :=
      h.accept (n := 0) (hrunning.trans h.running) hunder
        (fun k => (hlines k).trans (List.append_nil _).symm) hclock hasked rfl
    rw [List.append_nil] at haccept
    exact Or.inl ⟨moments, haccept⟩
  · have hrefuse := h.refuse (n := 0) (hrunning.trans h.running) hunder hclock hasked
    simp only [List.range'_zero, List.map_nil, List.append_nil] at hrefuse
    exact Or.inr ⟨moments, turned, hrefuse⟩

/-- Whether the call is about to begin a round makes no difference. -/
theorem Serves.rouse (h : Serves d₀ accepted d es) (awake : Bool) :
    Serves d₀ accepted { d with awake := awake } es :=
  h.rest rfl rfl (fun k => by cases k <;> rfl) (Nat.le_refl _) rfl

/-! ### Rounds -/

/-- The call is served or over, and the given time has come. -/
def ServesAfter (d₀ : Desk) (accepted : List Input) (due : Nat) (d : Desk) (es : List Effect) :
    Prop :=
  due ≤ d.clock ∧ Serves d₀ accepted d es

variable {due : Nat}

theorem leads_finish (hdue : due ≤ d.clock) :
    Leads (fun es => ∃ moments, Serving d₀ accepted moments d es) d.finish
      (ServesAfter d₀ accepted due) :=
  fun _ ⟨moments, h⟩ => ⟨hdue, Or.inr ⟨moments, _, h.over_finish⟩⟩

theorem leads_deal (alone : Bool) (n : Nat) (hdue : due ≤ d.clock) :
    Leads (fun es => ∃ moments, Serving d₀ accepted moments d es) (deal due alone n d)
      (ServesAfter d₀ accepted due) := by
  induction n generalizing d with
  | zero =>
    exact .pure fun es h => ⟨hdue, Serves.rouse (Or.inl h) true⟩
  | succ n ih =>
    unfold deal
    split
    · rename_i i d' hnext
      have ht := takes_of_next? hnext
      have hdue' : due ≤ d'.clock := by
        rw [(congrArg Desk.clock ht.frame :)]
        exact hdue
      exact .bind (q := fun call es => ∃ moments,
        Serving d₀ accepted moments { d' with call := call } es)
        (fun es ⟨moments, h⟩ => ⟨_, h.take hdue ht⟩) (ih hdue')
    · split
      · exact leads_finish hdue
      · exact .pure fun es h => ⟨hdue, Or.inl h⟩

theorem leads_round (d : Desk) :
    Leads (ServesAfter d₀ accepted due d) (d.round due) (ServesAfter d₀ accepted due) := by
  unfold round
  split
  · exact .pure fun _ h => h
  · rename_i hrunning
    rw [Bool.not_eq_true', Bool.not_eq_false] at hrunning
    split
    · exact fun es h => leads_finish h.1 es (h.2.serving hrunning)
    · exact fun es h => leads_deal (d := { d with awake := false }) _ _ h.1 es
        ((h.2.rouse false).serving hrunning)

theorem ServesAfter.interlude (h : ServesAfter d₀ accepted due d es) :
    ServesAfter d₀ accepted due d.interlude es :=
  ⟨h.1, h.2.rest rfl rfl (line_interlude d) (Nat.le_refl _) rfl⟩

theorem leads_rounds (n : Nat) (d : Desk) :
    Leads (ServesAfter d₀ accepted due d) (rounds due n d) (ServesAfter d₀ accepted due) := by
  induction n generalizing d with
  | zero => exact .pure fun _ h => h
  | succ n ih => exact (leads_round d).bind fun es h => ih _ es h.interlude

theorem leads_roundsUntilTired (n : Nat) (d : Desk) :
    Leads (ServesAfter d₀ accepted due d) (roundsUntilTired due n d)
      (ServesAfter d₀ accepted due) := by
  induction n generalizing d with
  | zero => exact .pure fun _ h => h
  | succ n ih =>
    refine (leads_round d).bind ?_
    split
    · exact .pure fun _ h => h.interlude
    · exact fun es h => ih _ es h.interlude

/-- The call deals with what waits, and nothing is put in. -/
theorem leads_settle (d : Desk) :
    Leads (Serves d₀ accepted d) d.settle (Serves d₀ accepted) :=
  Leads.bind (q := ServesAfter d₀ accepted d.clock)
    (fun es h => leads_rounds _ d es ⟨Nat.le_refl _, h⟩)
    (.pure fun _ h => h.2.rouse false)

theorem leads_pass (d : Desk) (ms : Nat) :
    Leads (Serves d₀ accepted d) (d.pass ms) (Serves d₀ accepted) := by
  have hadvance : ∀ es, Serves d₀ accepted d es →
      ServesAfter d₀ accepted d.clock (d.advance ms) es := fun es h =>
    ⟨Nat.le_add_right _ _,
      h.rest rfl rfl (fun k => by cases k <;> rfl) (Nat.le_add_right _ _) rfl⟩
  exact Leads.bind (q := ServesAfter d₀ accepted d.clock)
    (fun es h => leads_roundsUntilTired _ _ es (hadvance es h))
    (.pure fun _ h => h.2.rouse _)

/-- Inputs are put in, time goes by, or the call is to end or is let go of. -/
theorem leads_quiet {change : Change} (hquiet : change.isQuiet = true) (hprompt : d.Prompt) :
    Leads (Serves d₀ accepted d) (d.apply change) (Serves d₀ (accepted ++ d.accepts change)) := by
  intro es h
  have hkeeps : Keeps d change _ := keeps_apply hquiet
  rcases h with ⟨moments, h⟩ | ⟨moments, turned, h⟩
  · rw [effects_apply hquiet, if_pos h.running, List.append_nil]
    exact Or.inl ⟨moments, h.accept (hkeeps.running.trans h.running) hkeeps.call
      (line_apply h.running hprompt hquiet) hkeeps.clock_le hkeeps.asked
      (filterMap_ticket?_accepts h.running change)⟩
  · rw [accepts_of_over h.running, List.append_nil, effects_apply hquiet,
      if_neg (h.running ▸ Bool.false_ne_true)]
    exact Or.inr ⟨moments, _, h.refuse (hkeeps.running.trans h.running) hkeeps.call
      hkeeps.clock_le hkeeps.asked⟩

theorem leads_apply {change : Change} (hdeaf : change ≠ .deafen) (hprompt : d.Prompt) :
    Leads (Serves d₀ accepted d) (d.apply change) (Serves d₀ (accepted ++ d.accepts change)) := by
  cases change with
  | deafen => exact absurd rfl hdeaf
  | pass ms =>
    change Leads _ _ (Serves d₀ (accepted ++ []))
    rw [List.append_nil]
    exact leads_pass d ms
  | settle =>
    change Leads _ _ (Serves d₀ (accepted ++ []))
    rw [List.append_nil]
    exact leads_settle d
  | _ => exact leads_quiet rfl hprompt

/-! ### Replies on their way -/

/-- Every round is followed by the replies that were on their way. -/
theorem laterReplies_rounds (due n : Nat) (d : Desk) :
    (rounds due (n + 1) d).value.laterReplies = [] := by
  induction n generalizing d with
  | zero => rfl
  | succ n ih => exact ih _

theorem laterReplies_roundsUntilTired (due n : Nat) (d : Desk) :
    (roundsUntilTired due (n + 1) d).value.laterReplies = [] := by
  induction n generalizing d with
  | zero =>
    rw [roundsUntilTired, value_bind]
    split <;> rfl
  | succ n ih =>
    rw [roundsUntilTired, value_bind]
    split
    · rfl
    · exact ih _

theorem Prompt.of_awake (h : d.awake = true) : d.Prompt :=
  fun hnot => absurd (hnot.symm.trans h) Bool.false_ne_true

theorem prompt_apply (h : d.Prompt) (change : Change) : (d.apply change).value.Prompt := by
  cases change with
  | pass ms => exact fun _ => laterReplies_roundsUntilTired _ _ _
  | settle => exact fun _ => laterReplies_rounds d.clock _ d
  | letGo => exact fun hnot => h (Bool.or_eq_false_iff.1 hnot).1
  | get session result =>
    rw [apply, value_pure, get]
    split
    · exact h
    · split
      · rename_i hawake
        exact .of_awake hawake
      · exact h
  | ask i =>
    rw [apply, ask]
    split
    · exact .of_awake rfl
    · exact h
  | _ =>
    simp only [apply, value_pure, hear, hangLink, note]
    repeat' split
    all_goals first | exact h | exact .of_awake rfl

/-! ### Histories -/

theorem leads_run (changes : List Change) (hdeaf : .deafen ∉ changes) {d : Desk}
    (hprompt : d.Prompt) :
    Leads (Serves d₀ accepted d) (d.run changes) (Serves d₀ (accepted ++ d.accepted changes)) := by
  induction changes generalizing accepted d with
  | nil =>
    refine .pure fun es h => ?_
    rw [Desk.accepted, List.append_nil]
    exact h
  | cons change changes ih =>
    rw [List.mem_cons, not_or] at hdeaf
    rw [Desk.accepted, ← List.append_assoc]
    exact (leads_apply (Ne.symm hdeaf.1) hprompt).bind (ih hdeaf.2 (prompt_apply hprompt change))

/-- A desk serves its call in every history in which the relay does not stop taking messages. Where
it stops, another such history begins, with the call as it is then. -/
theorem serves_run (hrunning : d.running = true) (hprompt : d.Prompt) {changes : List Change}
    (hdeaf : .deafen ∉ changes) :
    Serves d (d.accepted changes) (d.run changes).value (d.run changes).effects :=
  leads_run changes hdeaf hprompt [] (Or.inl ⟨[], .start hrunning⟩)

end Desk

/-! ### Fresh calls -/

/-- What the media stack refused before the first moment makes no difference after it. -/
theorem value_run_under (c : Call) (r r' : Refusals) (moments : List Moment) :
    ((c.under r).run moments).value.under r' = (c.run moments).value.under r' := by
  cases moments <;> rfl

theorem effects_run_under (c : Call) (r : Refusals) (moments : List Moment) :
    ((c.under r).run moments).effects = (c.run moments).effects := by
  cases moments <;> rfl

theorem shutDown_run_under (c : Call) (r : Refusals) (moments : List Moment) :
    ∃ r', ((c.under r).run moments).value.shutDown =
      ⟨(c.run moments).value.shutDown.value.under r', (c.run moments).value.shutDown.effects⟩ :=
  ⟨_, (congrArg shutDown (c.value_run_under r _ moments)).trans (shutDown_under _ _)⟩

theorem Timely.of_under {c : Call} {r : Refusals} {moments : List Moment} {clock : Nat}
    (h : Timely (c.under r) moments clock) : Timely c moments clock where
  ordered := h.ordered
  past := h.past
  due before m after hm hdeadline := by
    obtain ⟨p, hp, hle⟩ := h.due before m after hm hdeadline
    exact ⟨p, (congrArg Call.pending (c.value_run_under r r before)).symm.trans hp, hle⟩

namespace Desk

/-- Whatever happens at the desk of a fresh call while the relay takes messages, there are moments
that lead a fresh call to where this call is, with the same effects. No two intents among them go by
the same ticket. If the call is over, it was shut down after these moments, and all that follows are
answers to those who are turned away. -/
theorem exists_moments (s : Settings) (room : RoomId) (user : UserId) (urls : Media.UrlSource)
    (refusals : Refusals) (capacity : Nat) {changes : List Change} (hdeaf : .deafen ∉ changes) :
    let start := Call.fresh s room user urls .none
    let o := (fresh (Call.fresh s room user urls refusals) capacity).run changes
    ∃ moments, (Call.tickets moments).Nodup ∧ Timely start moments o.value.clock ∧
      let c := (start.run moments).value
      let es := (start.run moments).effects
      (o.value.running = true ∧ o.value.call = c.under o.value.call.board.refusals ∧
          o.effects = es ∨
        o.value.running = false ∧
          o.value.call = c.shutDown.value.under o.value.call.board.refusals ∧
          ∃ turned : List (Nat × Answer), (∀ x ∈ turned, x.2 = .failed .ended ∨ x.2 = .done) ∧
            o.effects = es ++ (c.shutDown.effects ++ turned.map fun x => .answered x.1 x.2)) := by
  intro start o
  let d₀ := fresh (start.under refusals) capacity
  have hnodup : ∀ {ts us : List Nat} {n : Nat},
      ts ++ us = d₀.tickets ++ List.range' d₀.asked n → ts.Nodup := by
    intro ts us n h
    have hall : (ts ++ us).Nodup := by
      rw [h]
      exact List.nodup_range'
    exact hall.of_append_left
  rcases (serves_run (d := d₀) rfl (fun _ => rfl) hdeaf : Serves d₀ _ o.value o.effects) with
    ⟨moments, h⟩ | ⟨moments, turned, h⟩
  · obtain ⟨n, -, htickets⟩ := h.tickets_eq
    refine ⟨moments, hnodup htickets, h.timely.of_under, Or.inl ⟨h.running, ?_, ?_⟩⟩
    · exact h.call.trans (start.value_run_under refusals _ moments)
    · exact h.effects.trans (start.effects_run_under refusals moments)
  · obtain ⟨n, -, htickets⟩ := h.numbered
    obtain ⟨r, hshut⟩ := start.shutDown_run_under refusals moments
    have hcall := h.call
    have heffects := h.effects
    change _ = (((start.under refusals).run moments).value.shutDown.value).under _ at hcall
    change _ = ((start.under refusals).run moments).effects ++
      (((start.under refusals).run moments).value.shutDown.effects ++ _) at heffects
    rw [hshut] at hcall heffects
    rw [effects_run_under] at heffects
    refine ⟨moments, hnodup htickets, h.timely.of_under, Or.inr ⟨h.running, hcall, turned, ?_,
      heffects⟩⟩
    exact fun x hx => (h.words x hx).imp_right And.left

end Desk

end VideoCall.Call

import VideoCall.Proofs.Call.Dialing
import VideoCall.Proofs.Call.Metering
import VideoCall.Proofs.Call.Rosters

/-!
# How the ends of dials are counted

A dial that is pending comes to its end in four ways: a roster is admitted, its deadline comes, a
newer dial takes its place, or the participant leaves. Each of these answers it, and the first three
count it under the outcome of which the answer tells. A hang-up tells the dial that it was
superseded, as a newer dial does, but leaves it out of the count. So the counters agree with the
answers but for the dials that were cut short by a hang-up.

## Main definitions

* `Answer.outcome?` : the outcome of which an answer to a dial tells.
* `Call.answeredWith` : how many dials were answered with an outcome.
* `Call.settled`, `Call.cutShort` : how an input ends the pending dial, and the dial that a hang-up
  ends.

## Main results

* `Call.answeredWith_run` : dials are answered as the inputs end them.
* `Call.count_settled_run` : the ends of dials are counted, except for hang-ups.
* `Call.tallies_run` : the counters of dials are right, but for the dials that hang-ups cut short.
-/

namespace VideoCall

open Outcome Peer Wire Media

/-- The outcome of which an answer to a dial tells. -/
def Answer.outcome? : Answer → Option DialOutcome
  | .done => some .joined
  | .failed (.dialTimeout _) => some .timeout
  | .failed .dialSuperseded => some .superseded
  | _ => none

/-! ### The outcomes that are counted -/

/-- The outcome of a dial that a metric counts. -/
def Metric.outcome? : Metric → Option DialOutcome
  | .counter (.dials outcome) => some outcome
  | _ => none

namespace Effect

/-- The outcomes of dials that were counted, first the first one. -/
def tallied (es : List Effect) : List DialOutcome :=
  es.filterMap fun | .measured (.count (.dials outcome)) => some outcome | _ => none

theorem tallied_append (es fs : List Effect) : tallied (es ++ fs) = tallied es ++ tallied fs :=
  List.filterMap_append

theorem count_tallied (es : List Effect) (outcome : DialOutcome) :
    (tallied es).count outcome = (counts es).count (.dials outcome) := by
  induction es with
  | nil => rfl
  | cons e es ih =>
    rw [← List.singleton_append, tallied_append, counts_append, List.count_append,
      List.count_append, ih]
    congr 1
    cases e with
    | measured m =>
      cases m with
      | count c =>
        cases c with
        | dials o => simp [tallied, counts, List.count_singleton]
        | _ => rfl
      | set g n => rfl
    | _ => rfl

/-- Effects that touch no counter of dials count none. -/
theorem tallied_eq_nil {es : List Effect} {ms : List Metric} (h : ∀ e ∈ es, e.Touches ms)
    (hms : ∀ m ∈ ms, m.outcome? = none) : tallied es = [] := by
  refine List.filterMap_eq_nil_iff.2 fun e he => ?_
  have htouches := h e he
  cases e with
  | measured m =>
    cases m with
    | count c =>
      cases c with
      | dials o => cases hms _ htouches
      | _ => rfl
    | set g n => rfl
  | _ => rfl

end Effect

namespace Call

section Bind

/-! What counts no dial can come before, or after. -/

variable {α β : Type} {o : Outcome α} {f : α → Outcome β} {ms : List Metric}

theorem tallied_bind_of_left (h : Emits (Effect.Touches ms) o) (hms : ∀ m ∈ ms, m.outcome? = none) :
    Effect.tallied (o >>= f).effects = Effect.tallied (f o.value).effects := by
  rw [effects_bind, Effect.tallied_append, Effect.tallied_eq_nil h hms, List.nil_append]

theorem tallied_bind_of_right (h : Emits (Effect.Touches ms) (f o.value))
    (hms : ∀ m ∈ ms, m.outcome? = none) :
    Effect.tallied (o >>= f).effects = Effect.tallied o.effects := by
  rw [effects_bind, Effect.tallied_append, Effect.tallied_eq_nil h hms, List.append_nil]

end Bind

/-! ### How inputs end dials -/

/-- How an input ends the dial that is pending, if it does; `active` is whether rosters count. -/
def Input.ends? (active : Bool) : Input → Option DialOutcome
  | .relay (.message (.roster _)) => if active then some .joined else none
  | .intent _ (.dial _) => some .superseded
  | .intent _ .hangUp => some .superseded
  | .deadline => some .timeout
  | _ => none

variable (c : Call)

/-- The outcome with which an input ends the pending dial, if there is one. -/
def settled (i : Input) : List DialOutcome :=
  match i.ends? c.membership.active with
  | none => []
  | some outcome => c.pending.toList.map fun _ => outcome

/-- The pending dial that a hang-up cuts short. -/
def cutShort : Input → List PendingDial
  | .intent _ .hangUp => c.pending.toList
  | _ => []

theorem tallied_settleCounted (outcome : DialOutcome) (a : Answer) :
    Effect.tallied (c.settleCounted outcome a).effects = c.pending.toList.map fun _ => outcome := by
  unfold settleCounted
  split
  · rename_i h
    rw [h]
    rfl
  · rename_i p h
    have hdial : Effect.tallied (c.settleDial a).effects = [] :=
      Effect.tallied_eq_nil (c.touches_settleDial a) (by decide)
    rw [h, effects_bind, Effect.tallied_append, hdial]
    rfl

/-- A roster that is admitted counts the pending dial as joined. -/
theorem tallied_onRoster (r : Roster) :
    Effect.tallied (c.onRoster r).effects = c.pending.toList.map fun _ => .joined := by
  obtain ⟨mesh, board, hconnected⟩ := (c.informed r).exists_value_connectEach
    (r.initiator = c.membership.user) (c.newcomers r)
  have hconclusion (c' : Call) : Effect.tallied (c'.settleCounted .joined .done >>=
      fun c' => c'.applyRecording r.recording (nonempty r.recordUrl)).effects =
        c'.pending.toList.map fun _ => .joined := by
    rw [← c'.tallied_settleCounted .joined .done]
    exact tallied_bind_of_right (touches_applyRecording _ _ _) (by decide)
  rw [onRoster_eq]
  refine (tallied_bind_of_left (touches_notify _ _) (by decide)).trans
    ((tallied_bind_of_left (touches_connectEach (c.informed r) _ _) (by decide)).trans ?_)
  rw [hconclusion, hconnected]
  rfl

/-- A newer dial counts the pending one as superseded. -/
theorem tallied_dial (now ticket : Nat) (nickname : String) :
    Effect.tallied (c.dial now ticket nickname).effects =
      c.pending.toList.map fun _ => .superseded := by
  rw [← c.tallied_settleCounted .superseded (.failed .dialSuperseded)]
  exact tallied_bind_of_right
    (Emits.bind (touches_send _ _) (.pure _)) (by decide)

/-- The deadline counts the pending dial as out of time. -/
theorem tallied_onDeadline :
    Effect.tallied c.onDeadline.effects = c.pending.toList.map fun _ => .timeout := by
  unfold onDeadline
  split
  · rename_i h
    rw [h]
    rfl
  · exact (tallied_bind_of_left (touches_notify _ _) (by decide)).trans
      (tallied_settleCounted _ _ _)

/-- Nothing but rosters, dials, and deadlines counts a dial. -/
theorem Input.outcome?_eq_none {i : Input} (hroster : ∀ r, i ≠ .relay (.message (.roster r)))
    (hdial : ∀ ticket nickname, i ≠ .intent ticket (.dial nickname)) (hdeadline : i ≠ .deadline) :
    ∀ m ∈ i.metrics, m.outcome? = none := by
  cases i with
  | relay e =>
    cases e with
    | message m =>
      cases m with
      | roster r => exact absurd rfl (hroster r)
      | _ => simp [metrics, Metric.ofMessage, Metric.ofGallery, Metric.outcome?]
    | _ => exact List.forall_mem_nil _
  | report n key r =>
    cases key with
    | recording => simp [metrics, Metric.outcome?]
    | participant u =>
      cases r <;> simp [metrics, Metric.ofReport, Metric.ofGallery, Metric.outcome?]
  | reply session result => exact List.forall_mem_nil _
  | intent ticket j =>
    cases j with
    | dial nickname => exact absurd rfl (hdial ticket nickname)
    | _ => simp [metrics, Metric.ofIntent, Metric.ofRelease, Metric.ofGallery, Metric.outcome?]
  | deadline => exact absurd rfl hdeadline

/-- How an input ends the pending dial is counted, unless a hang-up cuts it short. -/
theorem settled_eq (m : Moment) : c.settled m.input =
    Effect.tallied (c.meet m).effects ++ (c.cutShort m.input).map fun _ => .superseded := by
  have htouches := c.touches_meet m
  obtain ⟨now, refusals, i⟩ := m
  let c' : Call := { c with board := { c.board with refusals := refusals } }
  -- most inputs neither end a dial nor count one
  have hquiet (hmetrics : ∀ m' ∈ i.metrics, m'.outcome? = none)
      (hends : i.ends? c.membership.active = none) (hcut : c.cutShort i = []) :
      c.settled i = Effect.tallied (c.meet ⟨now, refusals, i⟩).effects ++
        (c.cutShort i).map fun _ => .superseded := by
    rw [Effect.tallied_eq_nil htouches hmetrics, hcut, settled, hends]
    rfl
  have hcounted {o : Outcome Call} {outcome : DialOutcome}
      (ho : Effect.tallied o.effects = c.pending.toList.map fun _ => outcome)
      (hmeet : c.meet ⟨now, refusals, i⟩ = o)
      (hends : i.ends? c.membership.active = some outcome) (hcut : c.cutShort i = []) :
      c.settled i = Effect.tallied (c.meet ⟨now, refusals, i⟩).effects ++
        (c.cutShort i).map fun _ => .superseded := by
    rw [hmeet, ho, hcut, settled, hends]
    exact (List.append_nil _).symm
  cases i with
  | relay e =>
    cases e with
    | message m =>
      cases m with
      | roster r =>
        by_cases hactive : c.membership.active = true
        · exact hcounted (c'.tallied_onRoster r) (if_pos hactive) (if_pos hactive) rfl
        · have hdropped : c.meet ⟨now, refusals, .relay (.message (.roster r))⟩ =
              (count (.signalsDropped .notJoined) >>= fun _ => pure c') := if_neg hactive
          rw [hdropped, settled, Input.ends?, if_neg hactive]
          rfl
      | _ => exact hquiet (Input.outcome?_eq_none nofun nofun nofun) rfl rfl
    | _ => exact hquiet (Input.outcome?_eq_none nofun nofun nofun) rfl rfl
  | report n key r => exact hquiet (Input.outcome?_eq_none nofun nofun nofun) rfl rfl
  | reply session result => exact hquiet (Input.outcome?_eq_none nofun nofun nofun) rfl rfl
  | intent ticket j =>
    cases j with
    | dial nickname => exact hcounted (c'.tallied_dial now ticket nickname) rfl rfl rfl
    | hangUp =>
      rw [Effect.tallied_eq_nil htouches (Input.outcome?_eq_none nofun nofun nofun)]
      rfl
    | _ => exact hquiet (Input.outcome?_eq_none nofun nofun nofun) rfl rfl
  | deadline => exact hcounted c'.tallied_onDeadline rfl rfl rfl

/-- The ends of dials in a history are counted, except for those that hang-ups cut short. -/
theorem count_settled_run (moments : List Moment) (outcome : DialOutcome) :
    (c.gather settled moments).count outcome =
      (Effect.tallied (c.run moments).effects).count outcome +
        if outcome = .superseded then (c.gather cutShort moments).length else 0 := by
  induction moments generalizing c with
  | nil => simp [gather, run, Effect.tallied]
  | cons m moments ih =>
    have heffects : (c.run (m :: moments)).effects =
        (c.meet m).effects ++ ((c.meet m).value.run moments).effects := rfl
    rw [gather, gather, heffects, Effect.tallied_append, List.count_append, List.count_append, ih,
      c.settled_eq m, List.count_append, List.map_const', List.count_replicate, List.length_append]
    by_cases h : outcome = .superseded
    · subst h
      simp only [beq_self_eq_true, if_true]
      omega
    · have hne : (DialOutcome.superseded == outcome) = false := beq_false_of_ne (Ne.symm h)
      simp only [hne, Bool.false_eq_true, if_false, if_neg h, Nat.add_zero]

/-! ### How dials are answered -/

/-- How many dials were answered with an outcome. -/
def answeredWith (outcome : DialOutcome) (ds : List PendingDial) (as : List (Nat × Answer)) : Nat :=
  ds.countP fun d => as.any fun (t, a) => t = d.ticket && a.outcome? = some outcome

section Answered

variable {outcome : DialOutcome} {ds : List PendingDial} {as bs : List (Nat × Answer)}

/-- Answers to others do not matter. -/
theorem answeredWith_append_of_not_mem (h : ∀ d ∈ ds, ∀ a, (d.ticket, a) ∉ bs) :
    answeredWith outcome ds (as ++ bs) = answeredWith outcome ds as := by
  refine List.countP_congr fun d hd => ?_
  have hnone : (bs.any fun (t, a) => t = d.ticket && a.outcome? = some outcome) = false := by
    refine List.any_eq_false.2 fun ⟨t, a⟩ hmem htrue => h d hd a ?_
    obtain ⟨ht, -⟩ := Bool.and_eq_true_iff.1 htrue
    exact of_decide_eq_true ht ▸ hmem
  rw [List.any_append, hnone, Bool.or_false]

/-- Dials that have no answer were answered with no outcome. -/
theorem answeredWith_eq_zero (h : ∀ d ∈ ds, ∀ a, (d.ticket, a) ∉ as) :
    answeredWith outcome ds as = 0 := by
  have hnil : answeredWith outcome ds ([] ++ as) = answeredWith outcome ds [] :=
    answeredWith_append_of_not_mem h
  exact hnil.trans (List.countP_eq_zero.2 fun _ _ => Bool.false_ne_true)

theorem answeredWith_append_dials (es : List PendingDial) :
    answeredWith outcome (ds ++ es) as = answeredWith outcome ds as + answeredWith outcome es as :=
  List.countP_append

/-- The first answer to a dial raises the count of the outcome of which it tells. -/
theorem answeredWith_concat {p : PendingDial} (hp : p ∈ ds)
    (hn : (ds.map PendingDial.ticket).Nodup) (h : ∀ a, (p.ticket, a) ∉ as) {a : Answer}
    {o : DialOutcome} (ha : a.outcome? = some o) :
    answeredWith outcome ds (as ++ [(p.ticket, a)]) =
      answeredWith outcome ds as + [o].count outcome := by
  obtain ⟨before, after, rfl⟩ := List.append_of_mem hp
  have hothers {es : List PendingDial} (hes : ∀ d ∈ es, d.ticket ≠ p.ticket) :
      answeredWith outcome es (as ++ [(p.ticket, a)]) = answeredWith outcome es as :=
    answeredWith_append_of_not_mem fun d hd a' hmem =>
      hes d hd (Prod.mk.inj (List.mem_singleton.1 hmem)).1
  have hbefore : answeredWith outcome [p] as = 0 :=
    answeredWith_eq_zero fun d hd => List.mem_singleton.1 hd ▸ h
  have hafter : answeredWith outcome [p] (as ++ [(p.ticket, a)]) = [o].count outcome := by
    have hnone := List.countP_eq_zero.1 hbefore p (List.mem_singleton_self p)
    rw [answeredWith, List.countP_singleton, List.any_append, Bool.eq_false_iff.2 hnone]
    simp [ha, List.count_singleton]
  rw [List.map_append, List.map_cons] at hn
  obtain ⟨-, htail, hdisjoint⟩ := List.nodup_append.1 hn
  rw [← List.singleton_append, answeredWith_append_dials, answeredWith_append_dials,
    answeredWith_append_dials, answeredWith_append_dials, hbefore, hafter, hothers, hothers]
  · omega
  · exact fun d hd ht => (List.nodup_cons.1 htail).1 (ht ▸ List.mem_map_of_mem hd)
  · exact fun d hd => hdisjoint _ (List.mem_map_of_mem hd) _ List.mem_cons_self

end Answered

/-- An answer to the pending dial is the first one that it gets. -/
theorem Dialed.answeredWith_settlement {x : Outlook} {moments : List Moment}
    {as : List (Nat × Answer)} (h : Dialed x moments as) (hn : (tickets moments).Nodup) {a : Answer}
    {o : DialOutcome} (ha : a.outcome? = some o) (outcome : DialOutcome) :
    answeredWith outcome (dials x.timeout moments) (as ++ x.settlement a) =
      answeredWith outcome (dials x.timeout moments) as +
        (x.pending.toList.map fun _ => o).count outcome := by
  unfold Outlook.settlement
  cases hp : x.pending with
  | none => rw [Option.map_none, Option.toList_none, List.append_nil]; rfl
  | some p =>
    have hmem := h.mem_dials hp
    have hnone := h.answered p hmem
    rw [if_pos hp] at hnone
    refine answeredWith_concat hmem (hn.sublist (sublist_tickets _ _)) (fun b hb => ?_) ha
    exact List.count_eq_zero.1 hnone (List.mem_map_of_mem hb)

/-- No dial is pending after a moment that ends it, unless the moment brings another one. -/
theorem pending_meet_of_ends {m : Moment} {o : DialOutcome}
    (hm : m.dial? c.dialTimeout = none) (ho : m.input.ends? c.membership.active = some o) :
    (c.meet m).value.pending = none := by
  obtain ⟨now, refusals, i⟩ := m
  let c' : Call := { c with board := { c.board with refusals := refusals } }
  cases i with
  | relay e =>
    cases e with
    | message message =>
      cases message with
      | roster r =>
        have hactive : c.membership.active = true := by
          by_contra hinactive
          rw [Input.ends?, if_neg hinactive] at ho
          cases ho
        have hmeet : c.meet ⟨now, refusals, .relay (.message (.roster r))⟩ = c'.onRoster r :=
          if_pos hactive
        obtain ⟨c'', hvalue, mesh, board, hc''⟩ := c'.exists_value_onRoster r
        rw [hmeet, hvalue]
        exact (congrArg Outlook.pending (outlook_applyRecording _ _ _)).trans
          (congrArg Call.pending hc'')
      | _ => cases ho
    | _ => cases ho
  | report n key r => cases ho
  | reply session result => cases ho
  | intent ticket j =>
    cases j with
    | dial nickname => cases hm
    | hangUp =>
      exact congrArg Outlook.pending (outlook_settleDial { c' with membership := c.membership.stop }
        (.failed .dialSuperseded))
    | _ => cases ho
  | deadline =>
    change c'.onDeadline.value.pending = none
    unfold onDeadline
    split
    · assumption
    · exact congrArg Outlook.pending (outlook_settleCounted _ _ _)

theorem Moment.input_of_dial? {timeout : Nat} {m : Moment} {d : PendingDial}
    (h : m.dial? timeout = some d) : ∃ nickname, m.input = .intent d.ticket (.dial nickname) := by
  obtain ⟨now, refusals, i⟩ := m
  cases i with
  | intent ticket j =>
    cases j with
    | dial nickname =>
      obtain rfl := Option.some.inj h
      exact ⟨nickname, rfl⟩
    | _ => cases h
  | _ => cases h

theorem dials_concat (timeout : Nat) (moments : List Moment) (m : Moment) :
    dials timeout (moments ++ [m]) = dials timeout moments ++ (m.dial? timeout).toList := by
  rw [dials_append]
  cases h : m.dial? timeout with
  | none => exact congrArg (_ ++ ·) (List.filterMap_cons_none h)
  | some d => exact congrArg (_ ++ ·) (List.filterMap_cons_some h)

theorem settled_of_ends {i : Input} {o : DialOutcome} (ho : i.ends? c.membership.active = some o) :
    c.settled i = c.pending.toList.map fun _ => o := by
  rw [settled, ho]

/-- A moment that leaves the outlook as it is ends no dial. -/
theorem settled_eq_nil {m : Moment} (hdial : m.dial? c.dialTimeout = none)
    (hrest : (c.meet m).value.outlook = c.outlook) : c.settled m.input = [] := by
  unfold settled
  split
  · rfl
  · rename_i o ho
    have hnone : c.pending = none :=
      (congrArg Outlook.pending hrest).symm.trans (c.pending_meet_of_ends hdial ho)
    rw [hnone]
    rfl

/-- A new dial has no answer yet. -/
theorem Dialed.answeredWith_new {x : Outlook} {moments : List Moment} {as : List (Nat × Answer)}
    (h : Dialed x moments as) {d : PendingDial} (hd : d.ticket ∉ tickets moments) (a : Answer)
    (outcome : DialOutcome) : answeredWith outcome [d] (as ++ x.settlement a) = 0 := by
  refine answeredWith_eq_zero fun d' hd' b hmem => hd ?_
  obtain rfl := List.mem_singleton.1 hd'
  rcases List.mem_append.1 hmem with hmem | hmem
  · exact h.asked _ b hmem
  · obtain ⟨-, p, hp, hticket⟩ := Outlook.mem_settlement.1 hmem
    exact hticket ▸ ticket_mem_tickets (h.mem_dials hp)

/-- A moment answers the pending dial as it ends it. -/
theorem Dialed.answeredWith_meet {c : Call} {moments : List Moment} {as : List (Nat × Answer)}
    (h : Dialed c.outlook moments as) {m : Moment} (hn : (tickets (moments ++ [m])).Nodup)
    (outcome : DialOutcome) :
    answeredWith outcome (dials c.dialTimeout (moments ++ [m]))
        (as ++ Effect.answers (c.meet m).effects) =
      answeredWith outcome (dials c.dialTimeout moments) as +
        (c.settled m.input).count outcome := by
  have hturn := c.turn_meet m
  have hrest := fun hdial => c.settled_eq_nil (m := m) hdial
  rw [tickets_append] at hn
  have hbefore := hn.of_append_left
  have hnew {t : Nat} (hm : m.ticket? = some t) : t ∉ tickets moments := fun hold =>
    List.disjoint_of_nodup_append hn hold (List.mem_filterMap.2 ⟨m, List.mem_singleton_self m, hm⟩)
  -- answers to the intent of the moment are none to a dial before it
  have hown {bs cs : List (Nat × Answer)} (hcs : ∀ t a, (t, a) ∈ cs → m.ticket? = some t) :
      answeredWith outcome (dials c.dialTimeout moments) (bs ++ cs) =
        answeredWith outcome (dials c.dialTimeout moments) bs :=
    answeredWith_append_of_not_mem fun d hd a hmem => hnew (hcs _ a hmem) (ticket_mem_tickets hd)
  have hended {a : Answer} {o : DialOutcome} (ha : a.outcome? = some o)
      (ho : m.input.ends? c.membership.active = some o) :
      answeredWith outcome (dials c.dialTimeout moments) (as ++ c.outlook.settlement a) =
        answeredWith outcome (dials c.dialTimeout moments) as +
          (c.settled m.input).count outcome := by
    rw [c.settled_of_ends ho]
    exact h.answeredWith_settlement hbefore ha outcome
  have hdials (hdial : m.dial? c.dialTimeout = none) :
      dials c.dialTimeout moments ++ (m.dial? c.dialTimeout).toList =
        dials c.dialTimeout moments := by
    rw [hdial, Option.toList_none, List.append_nil]
  rw [dials_concat]
  generalize (c.meet m).value.outlook = y at hturn hrest
  generalize Effect.answers (c.meet m).effects = bs at hturn ⊢
  cases hturn with
  | rest hdial has =>
    rw [hdials hdial, hown has, hrest hdial rfl]
    rfl
  | @dial d hdial =>
    have hdial' : m.dial? c.dialTimeout = some d := hdial
    obtain ⟨nickname, hm⟩ := Moment.input_of_dial? hdial
    rw [hdial', Option.toList_some, answeredWith_append_dials,
      h.answeredWith_new (hnew (Moment.ticket?_of_dial? hdial))]
    exact hended rfl (by rw [hm]; rfl)
  | roster hm hactive =>
    rw [hdials (Moment.dial?_eq hm _)]
    exact hended rfl (by rw [hm]; exact if_pos hactive)
  | deadline hm =>
    rw [hdials (Moment.dial?_eq hm _)]
    exact hended rfl (by rw [hm]; rfl)
  | hangUp hm =>
    rw [hdials (Moment.dial?_eq hm _), ← List.append_assoc, hown]
    · exact hended rfl (by rw [hm]; rfl)
    · intro t a hmem
      obtain ⟨rfl, -⟩ := Prod.mk.inj (List.mem_singleton.1 hmem)
      exact Moment.ticket?_eq hm

/-- In every history dials are answered as the inputs end them. -/
theorem answeredWith_run (s : Settings) (room : RoomId) (user : UserId) (urls : UrlSource)
    (moments : List Moment) (hn : (tickets moments).Nodup) (outcome : DialOutcome) :
    let start := fresh s room user urls .none
    answeredWith outcome (dials s.dialTimeout moments)
      (Effect.answers (start.run moments).effects) =
        (start.gather settled moments).count outcome := by
  intro start
  induction moments using List.reverseRecOn with
  | nil => rfl
  | append_singleton moments m ih =>
    have hbefore : (tickets moments).Nodup := (tickets_append moments [m] ▸ hn).of_append_left
    have htimeout : (start.run moments).value.dialTimeout = s.dialTimeout :=
      dialTimeout_run start moments
    have hmeet := (dialed_run s room user urls moments hbefore).answeredWith_meet hn outcome
    rw [htimeout, ih hbefore] at hmeet
    rw [effects_run_concat, Effect.answers_append, hmeet, gather_concat, List.count_append]

/-! ### All dials -/

/-- The end of the call counts no dial, and tells of no outcome. -/
theorem count_shutDown (outcome : DialOutcome) :
    (Effect.counts c.shutDown.effects).count (.dials outcome) = 0 := by
  have hnone : Effect.tallied c.shutDown.effects = [] :=
    Effect.tallied_eq_nil c.touches_shutDown (by decide)
  rw [← Effect.count_tallied, hnone, List.count_nil]

theorem answeredWith_shutDown (outcome : DialOutcome) (ds : List PendingDial)
    (as : List (Nat × Answer)) :
    answeredWith outcome ds (as ++ Effect.answers c.shutDown.effects) =
      answeredWith outcome ds as := by
  refine List.countP_congr fun d _ => ?_
  have hnone : ((Effect.answers c.shutDown.effects).any fun (t, a) =>
      t = d.ticket && a.outcome? = some outcome) = false := by
    rw [answers_shutDown]
    refine List.any_eq_false.2 fun ⟨t, a⟩ hmem htrue => ?_
    obtain ⟨rfl, -⟩ := Outlook.mem_settlement.1 hmem
    exact Option.some_ne_none _ (of_decide_eq_true (Bool.and_eq_true_iff.1 htrue).2).symm
  rw [List.any_append, hnone, Bool.or_false]

/-- A history yields nothing if none of its inputs does. -/
theorem gather_eq_nil_iff {α : Type} (yield : Call → Input → List α) (moments : List Moment) :
    c.gather yield moments = [] ↔ ∀ before m after, moments = before ++ m :: after →
      yield (c.run before).value m.input = [] := by
  induction moments generalizing c with
  | nil => exact iff_of_true rfl fun before m after h => absurd h (by simp)
  | cons n moments ih =>
    rw [gather, List.append_eq_nil_iff, ih]
    constructor
    · rintro ⟨hfirst, hrest⟩ before m after h
      cases before with
      | nil =>
        obtain ⟨rfl, -⟩ := List.cons.inj h
        exact hfirst
      | cons n' before =>
        obtain ⟨rfl, hmoments⟩ := List.cons.inj h
        exact hrest before m after hmoments
    · intro h
      exact ⟨h [] n moments rfl, fun before m after heq => h (n :: before) m after (heq ▸ rfl)⟩

/-- A hang-up cuts no dial short if it finds none pending. -/
theorem cutShort_eq_nil_iff (i : Input) :
    c.cutShort i = [] ↔ ((∃ t, i = .intent t .hangUp) → c.pending = none) := by
  constructor
  · rintro h ⟨t, rfl⟩
    exact Option.toList_eq_nil_iff.1 h
  · intro h
    unfold cutShort
    split
    · exact Option.toList_eq_nil_iff.2 (h ⟨_, rfl⟩)
    · rfl

/-- In every history, also when the call ends after it:

* the counters of dials that joined, and of those that ran out of time, are right: as many dials
  were answered so;
* of the dials that are told that they were superseded, the counter leaves out those that a hang-up
  cut short;
* so all counters are right if, and only if, no hang-up found a dial pending. -/
theorem tallies_run (s : Settings) (room : RoomId) (user : UserId) (urls : UrlSource)
    (moments : List Moment) (hn : (tickets moments).Nodup) :
    let start := fresh s room user urls .none
    let o := start.run moments
    let ds := dials s.dialTimeout moments
    ∀ es ∈ [o.effects, o.effects ++ o.value.shutDown.effects],
      let total := (Footprint.none.noteAll es).readings.total
      let answered := fun outcome => answeredWith outcome ds (Effect.answers es)
      total (.dials .joined) = answered .joined ∧
      total (.dials .timeout) = answered .timeout ∧
      total (.dials .superseded) + (start.gather cutShort moments).length = answered .superseded ∧
      ((∀ outcome, total (.dials outcome) = answered outcome) ↔
        ∀ before m after, moments = before ++ m :: after →
          (∃ t, m.input = .intent t .hangUp) → (start.run before).value.pending = none) := by
  intro start o ds es hes total answered
  have htotal (outcome : DialOutcome) :
      total (.dials outcome) = (Effect.tallied o.effects).count outcome := by
    have hnone : Footprint.none.readings.total (.dials outcome) = 0 := rfl
    rw [Effect.count_tallied]
    refine (Footprint.total_noteAll _ es _).trans ?_
    rw [hnone, Nat.zero_add]
    rcases List.mem_pair.1 hes with rfl | rfl
    · rfl
    · rw [Effect.counts_append, List.count_append, count_shutDown, Nat.add_zero]
  have hanswered (outcome : DialOutcome) :
      answered outcome = (Effect.tallied o.effects).count outcome +
        if outcome = .superseded then (start.gather cutShort moments).length else 0 := by
    rw [← start.count_settled_run moments outcome,
      ← answeredWith_run s room user urls moments hn outcome]
    rcases List.mem_pair.1 hes with rfl | rfl
    · rfl
    · exact (congrArg (answeredWith outcome ds) (Effect.answers_append _ _)).trans
        (o.value.answeredWith_shutDown outcome ds _)
  refine ⟨?_, ?_, ?_, ?_⟩
  · rw [htotal, hanswered, if_neg nofun, Nat.add_zero]
  · rw [htotal, hanswered, if_neg nofun, Nat.add_zero]
  · rw [htotal, hanswered, if_pos rfl]
  · simp only [← cutShort_eq_nil_iff]
    rw [← gather_eq_nil_iff]
    constructor
    · intro h
      have hsuperseded := h .superseded
      rw [htotal, hanswered, if_pos rfl] at hsuperseded
      exact List.length_eq_zero_iff.1 (by omega)
    · intro h outcome
      rw [htotal, hanswered, h, List.length_nil, ite_self, Nat.add_zero]

/-- Of the dials that a hang-up cuts short, none is counted. -/
theorem tallies_run_redialing :
    let start := fresh (.ofRelay "ws://relay") ⟨"room"⟩ ⟨"me"⟩ (.fresh fun _ _ => false) .none
    let es := (start.run redialing).effects
    let total := (Footprint.none.noteAll es).readings.total
    let answered := fun outcome => answeredWith outcome
      (dials (Settings.ofRelay "ws://relay").dialTimeout redialing) (Effect.answers es)
    (tickets redialing).Nodup ∧ total (.dials .joined) = answered .joined ∧
      total (.dials .timeout) = answered .timeout ∧
      total (.dials .superseded) + 1 = answered .superseded := by
  have hn : (tickets redialing).Nodup := by decide
  obtain ⟨hjoined, htimeout, hsuperseded, -⟩ := tallies_run (.ofRelay "ws://relay") ⟨"room"⟩ ⟨"me"⟩
    (.fresh fun _ _ => false) redialing hn _ List.mem_cons_self
  exact ⟨hn, hjoined, htimeout, hsuperseded⟩

/-- A hang-up answers the dial that is pending, and leaves it out of the count. -/
theorem hangUp_leaves_dial_uncounted :
    let start := fresh (.ofRelay "ws://relay") ⟨"room"⟩ ⟨"me"⟩ (.fresh fun _ _ => false) .none
    let moments : List Moment := [⟨0, .none, .intent 0 (.dial "me")⟩, ⟨1, .none, .intent 1 .hangUp⟩]
    let es := (start.run moments).effects
    Effect.answers es = [(0, .failed .dialSuperseded), (1, .done)] ∧
      (Footprint.none.noteAll es).readings.total (.dials .superseded) = 0 ∧
      answeredWith .superseded (dials (Settings.ofRelay "ws://relay").dialTimeout moments)
        (Effect.answers es) = 1 :=
  ⟨rfl, by decide, by decide⟩

end Call

end VideoCall

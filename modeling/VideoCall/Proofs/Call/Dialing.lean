import Mathlib.Data.List.Induction
import VideoCall.Proofs.Call.Lines

/-!
# Dials and their answers

If no two intents go by the same ticket, then at any time at most one dial has no answer yet, and
that is the latest one: it is pending. While it waits, the participant is ready, so that a roster
will count. Every other dial has one answer, for its cause, and when the call ends, all have one.

## Main definitions

* `Call.answersTo` : how many answers an intent got.
* `Call.Dialed` : where the dials of a history stand.

## Main results

* `Call.Dialed.turn` : where dials stand after one more moment.
* `Call.dials_run` : where they stand in every history, what their answers came from, and what
  becomes of them when the call ends.
-/

namespace VideoCall.Call

open Outcome Wire Media

/-! ### Histories -/

/-- How many of some answers are to the intent of the given ticket. -/
def answersTo (ticket : Nat) (as : List (Nat × Answer)) : Nat := (as.map Prod.fst).count ticket

theorem answersTo_append (ticket : Nat) (as bs : List (Nat × Answer)) :
    answersTo ticket (as ++ bs) = answersTo ticket as + answersTo ticket bs := by
  unfold answersTo
  rw [List.map_append, List.count_append]

theorem answersTo_eq_zero {t : Nat} {as : List (Nat × Answer)} (h : ∀ a, (t, a) ∉ as) :
    answersTo t as = 0 := by
  refine List.count_eq_zero.2 fun ht => ?_
  obtain ⟨⟨t', a⟩, hmem, rfl⟩ := List.mem_map.1 ht
  exact h a hmem

/-- Where the dials of a history stand. -/
structure Dialed (x : Outlook) (moments : List Moment) (as : List (Nat × Answer)) : Prop where
  /-- The dial that is pending is the latest one. -/
  latest : ∀ d, x.pending = some d → (dials x.timeout moments).getLast? = some d
  /-- While a dial is pending, the participant is ready. -/
  ready : ∀ d, x.pending = some d → x.active = true
  /-- The dial that is pending has no answer yet, and every other one has one. -/
  answered : ∀ d ∈ dials x.timeout moments,
    answersTo d.ticket as = if x.pending = some d then 0 else 1
  /-- Only intents were answered. -/
  asked : ∀ t a, (t, a) ∈ as → t ∈ tickets moments

namespace Dialed

variable {x y : Outlook} {moments : List Moment} {as bs : List (Nat × Answer)}

theorem mem_dials (h : Dialed x moments as) {d : PendingDial} (hd : x.pending = some d) :
    d ∈ dials x.timeout moments :=
  List.mem_of_getLast? (h.latest d hd)

/-- Once the pending dial is answered, every dial has its answer. -/
theorem answersTo_eq_one (h : Dialed x moments as) (hn : (tickets moments).Nodup) (a : Answer)
    {d : PendingDial} (hd : d ∈ dials x.timeout moments) :
    answersTo d.ticket (as ++ x.settlement a) = 1 := by
  have hnow : answersTo d.ticket (x.settlement a) = if x.pending = some d then 1 else 0 := by
    unfold answersTo Outlook.settlement
    cases hp : x.pending with
    | none => rfl
    | some p =>
      have hiff : p.ticket = d.ticket ↔ p = d :=
        ⟨eq_of_ticket_eq hn (h.mem_dials hp) hd, congrArg PendingDial.ticket⟩
      simp [List.count_singleton, hiff]
  rw [answersTo_append, h.answered d hd, hnow]
  split <;> rfl

/-- Where dials stand after a moment. -/
theorem turn (h : Dialed x moments as) {m : Moment} (hn : (tickets (moments ++ [m])).Nodup)
    (ht : Turn x m y bs) : Dialed y (moments ++ [m]) (as ++ bs) := by
  rw [tickets_append] at hn
  have hnew : ∀ t, m.ticket? = some t → t ∈ tickets [m] := fun t hm =>
    List.mem_filterMap.2 ⟨m, List.mem_singleton_self m, hm⟩
  have hfresh : ∀ d ∈ dials x.timeout moments, m.ticket? ≠ some d.ticket := fun d hd hm =>
    List.disjoint_of_nodup_append hn (ticket_mem_tickets hd) (hnew _ hm)
  have hdials : m.dial? x.timeout = none →
      dials x.timeout (moments ++ [m]) = dials x.timeout moments := by
    intro hm
    have hnone : dials x.timeout [m] = [] := List.filterMap_cons_none hm
    rw [dials_append, hnone, List.append_nil]
  have hasked : ∀ t a, (t, a) ∈ as ++ bs → t ∈ tickets (moments ++ [m]) := by
    intro t a hmem
    rw [tickets_append]
    rcases List.mem_append.1 hmem with hmem | hmem
    · exact List.mem_append_left _ (h.asked t a hmem)
    · rcases ht.cause hmem with ⟨hm, -⟩ | ⟨d, hd, rfl, -⟩
      · exact List.mem_append_right _ (hnew t hm)
      · exact List.mem_append_left _ (ticket_mem_tickets (h.mem_dials hd))
  -- no dial is pending any more: what is left is that every dial has its answer
  have hnone : y.pending = none → y.timeout = x.timeout → m.dial? x.timeout = none →
      (∀ d ∈ dials x.timeout moments, answersTo d.ticket (as ++ bs) = 1) →
      Dialed y (moments ++ [m]) (as ++ bs) := by
    intro hpending htimeout hm hone
    refine ⟨fun d hd => ?_, fun d hd => ?_, fun d hd => ?_, hasked⟩
    · cases hpending.symm.trans hd
    · cases hpending.symm.trans hd
    · rw [htimeout, hdials hm] at hd
      rw [hone d hd, hpending, if_neg nofun]
  cases ht with
  | rest hm has =>
    refine ⟨fun d hd => (hdials hm).symm ▸ h.latest d hd, h.ready, fun d hd => ?_, hasked⟩
    rw [hdials hm] at hd
    have hzero : answersTo d.ticket bs = 0 :=
      answersTo_eq_zero fun a hmem => hfresh d hd (has _ a hmem)
    rw [answersTo_append, hzero]
    exact h.answered d hd
  | @dial d hm =>
    have hlast : dials x.timeout (moments ++ [m]) = dials x.timeout moments ++ [d] := by
      have hone : dials x.timeout [m] = [d] := List.filterMap_cons_some hm
      rw [dials_append, hone]
    have hd : d.ticket ∉ tickets moments := fun hold =>
      List.disjoint_of_nodup_append hn hold (hnew _ (Moment.ticket?_of_dial? hm))
    refine ⟨fun d' hd' => ?_, fun _ _ => rfl, fun d' hd' => ?_, hasked⟩
    · rw [hlast, ← hd', List.getLast?_concat]
    · rw [hlast] at hd'
      rcases List.mem_append.1 hd' with hold | hnow
      · have hne : some d ≠ some d' := fun he =>
          hd (Option.some.inj he ▸ ticket_mem_tickets hold)
        rw [if_neg hne]
        exact h.answersTo_eq_one hn.of_append_left _ hold
      · obtain rfl := List.mem_singleton.1 hnow
        rw [if_pos rfl]
        refine answersTo_eq_zero fun a hmem => ?_
        rcases List.mem_append.1 hmem with hmem | hmem
        · exact hd (h.asked _ a hmem)
        · obtain ⟨-, p, hp, hticket⟩ := Outlook.mem_settlement.1 hmem
          exact hd (hticket ▸ ticket_mem_tickets (h.mem_dials hp))
  | roster hm _ =>
    exact hnone rfl rfl (Moment.dial?_eq hm x.timeout) fun d hd =>
      h.answersTo_eq_one hn.of_append_left _ hd
  | deadline hm =>
    exact hnone rfl rfl (Moment.dial?_eq hm x.timeout) fun d hd =>
      h.answersTo_eq_one hn.of_append_left _ hd
  | @hangUp ticket hm =>
    refine hnone rfl rfl (Moment.dial?_eq hm x.timeout) fun d hd => ?_
    have hown : answersTo d.ticket [(ticket, .done)] = 0 := by
      refine answersTo_eq_zero fun a hmem => hfresh d hd ?_
      obtain ⟨rfl, -⟩ := Prod.mk.inj (List.mem_singleton.1 hmem)
      exact Moment.ticket?_eq hm
    rw [← List.append_assoc, answersTo_append, hown]
    exact h.answersTo_eq_one hn.of_append_left _ hd

end Dialed

/-! ### Runs -/

variable {c : Call}

theorem dialTimeout_run (c : Call) (moments : List Moment) :
    (c.run moments).value.dialTimeout = c.dialTimeout :=
  forEach_induction (p := fun c' : Call => c'.dialTimeout = c.dialTimeout) rfl
    fun c' hc' m _ => (c'.turn_meet m).timeout_eq.trans hc'

/-- A participant who is not ready is not until the next dial. -/
theorem inactive_run (hc : c.membership.active = false) {moments : List Moment}
    (hdials : dials c.dialTimeout moments = []) :
    (c.run moments).value.membership.active = false := by
  have hall : ∀ m ∈ moments, m.dial? c.dialTimeout = none := List.filterMap_eq_nil_iff.1 hdials
  refine (forEach_induction (p := fun c' : Call =>
    c'.dialTimeout = c.dialTimeout ∧ c'.membership.active = false) ⟨rfl, hc⟩
    fun c' hc' m hm => ?_).2
  have hturn := c'.turn_meet m
  have hdial : m.dial? c'.dialTimeout = none := hc'.1 ▸ hall m hm
  exact ⟨hturn.timeout_eq.trans hc'.1, hturn.inactive hc'.2 hdial⟩

theorem dialed_run (s : Settings) (room : RoomId) (user : UserId) (urls : UrlSource)
    (moments : List Moment) (hn : (tickets moments).Nodup) :
    Dialed ((fresh s room user urls .none).run moments).value.outlook moments
      (Effect.answers ((fresh s room user urls .none).run moments).effects) := by
  induction moments using List.reverseRecOn with
  | nil =>
    exact ⟨fun _ h => (nomatch h), fun _ h => (nomatch h), fun _ h => absurd h List.not_mem_nil,
      fun _ _ h => absurd h List.not_mem_nil⟩
  | append_singleton moments m ih =>
    have hbefore : (tickets moments).Nodup := (tickets_append moments [m] ▸ hn).of_append_left
    rw [value_run_concat, effects_run_concat, Effect.answers_append]
    exact (ih hbefore).turn hn (turn_meet _ m)

/-! ### The end of the call -/

theorem answers_shutDown (c : Call) :
    Effect.answers c.shutDown.effects = c.outlook.settlement (.failed .ended) :=
  (answers_bind_of_right (within_release _ false) (by decide)).trans (answers_settleDial c _)

theorem pending_shutDown (c : Call) : c.shutDown.value.pending = none :=
  congrArg Outlook.pending (c.outlook_settleDial (.failed .ended))

/-! ### The deadline -/

/-- The call takes up no deadline but that of the pending dial, when it has come. -/
theorem Desk.pending_of_next?_eq_deadline {k k' : Desk} {due : Nat}
    (h : k.next? due = some (.deadline, k')) :
    ∃ d, k.call.pending = some d ∧ d.deadline ≤ due :=
  (Desk.takes_of_next? h).pending_of_deadline

/-- No roster will count once the deadline has come. -/
theorem active_meet_of_deadline {m : Moment} (hm : m.input = .deadline) {d : PendingDial}
    (hd : c.pending = some d) : (c.meet m).value.membership.active = false := by
  have houtlook : (c.meet m).value.outlook = ⟨none, false, c.dialTimeout⟩ := by
    unfold meet react onDeadline
    rw [hm]
    dsimp only
    rw [hd]
    exact outlook_settleCounted _ _ _
  exact congrArg Outlook.active houtlook

/-! ### All dials -/

/-- An answer to a dial is given while it is pending, and for its cause. -/
theorem cause_of_mem_answers (s : Settings) (room : RoomId) (user : UserId) (urls : UrlSource)
    {before after : List Moment} {m : Moment} (hn : (tickets (before ++ m :: after)).Nodup)
    {d : PendingDial} (hd : d ∈ dials s.dialTimeout (before ++ m :: after)) {a : Answer}
    (hmem : (d.ticket, a) ∈ Effect.answers
      (((fresh s room user urls .none).run before).value.meet m).effects) :
    ((fresh s room user urls .none).run before).value.pending = some d ∧
      Cause ((fresh s room user urls .none).run before).value.outlook m a := by
  have htimeout : ((fresh s room user urls .none).run before).value.dialTimeout = s.dialTimeout :=
    dialTimeout_run _ before
  have hn' : (tickets before ++ tickets (m :: after)).Nodup := tickets_append _ _ ▸ hn
  have hbefore := dialed_run s room user urls before hn'.of_append_left
  rw [dials_append] at hd
  rcases (turn_meet _ m).cause hmem with ⟨hm, hnone⟩ | ⟨p, hp, hticket, hcause⟩
  · -- the answer is to the intent of the moment, which is no dial
    have hcons : tickets (m :: after) = d.ticket :: tickets after := List.filterMap_cons_some hm
    rw [hcons] at hn'
    rcases List.mem_append.1 hd with hd | hd
    · exact absurd List.mem_cons_self
        (List.disjoint_of_nodup_append hn' (ticket_mem_tickets hd))
    · have htail : dials s.dialTimeout (m :: after) = dials s.dialTimeout after :=
        List.filterMap_cons_none (htimeout ▸ hnone)
      rw [htail] at hd
      exact absurd (ticket_mem_tickets hd) (List.nodup_cons.1 hn'.of_append_right).1
  · have hpd : p ∈ dials s.dialTimeout (before ++ m :: after) := by
      rw [dials_append]
      exact List.mem_append_left _ (htimeout ▸ hbefore.mem_dials hp)
    obtain rfl := eq_of_ticket_eq hn hpd (dials_append _ _ _ ▸ hd) hticket
    exact ⟨hp, hcause⟩

/-- In every history where no two intents go by the same ticket:

* the dial that is pending is the latest one, and the participant is ready;
* it has no answer yet, and every other dial has one;
* an answer to a dial is given while it is pending, and for its cause: a roster that is admitted,
  its deadline, a newer dial, or a hang-up;
* the call takes up a deadline only when that of the pending dial has come, and then the participant
  is not ready until the next dial;
* when the call ends, the dial that is pending is told so, and every dial has one answer. -/
theorem dials_run (s : Settings) (room : RoomId) (user : UserId) (urls : UrlSource)
    (moments : List Moment) (hn : (tickets moments).Nodup) :
    let start := fresh s room user urls .none
    let c := (start.run moments).value
    let as := Effect.answers (start.run moments).effects
    let bs := Effect.answers c.shutDown.effects
    let ds := dials s.dialTimeout moments
    (∀ d, c.pending = some d → ds.getLast? = some d ∧ c.membership.active = true) ∧
    (∀ d ∈ ds, answersTo d.ticket as = if c.pending = some d then 0 else 1) ∧
    (∀ before m after, moments = before ++ m :: after → ∀ d ∈ ds, ∀ a,
      (d.ticket, a) ∈ Effect.answers ((start.run before).value.meet m).effects →
      (start.run before).value.pending = some d ∧ Cause (start.run before).value.outlook m a) ∧
    ((∀ (k k' : Desk) due, k.next? due = some (.deadline, k') →
        ∃ d, k.call.pending = some d ∧ d.deadline ≤ due) ∧
      ∀ before m quiet d, m.input = .deadline → (start.run before).value.pending = some d →
        dials s.dialTimeout quiet = [] →
        (start.run (before ++ m :: quiet)).value.membership.active = false) ∧
    (c.shutDown.value.pending = none ∧ (∀ t a, (t, a) ∈ bs → a = .failed .ended) ∧
      ∀ d ∈ ds, answersTo d.ticket (as ++ bs) = 1) := by
  intro start c as bs ds
  have htimeout : ∀ before, (start.run before).value.dialTimeout = s.dialTimeout :=
    fun before => dialTimeout_run start before
  have hbs : bs = c.outlook.settlement (.failed .ended) := c.answers_shutDown
  have hdialed : Dialed c.outlook moments as := dialed_run s room user urls moments hn
  have hds : dials c.dialTimeout moments = ds := congrArg (dials · moments) (htimeout moments)
  refine ⟨fun d hd => ⟨hds ▸ hdialed.latest d hd, hdialed.ready d hd⟩,
    fun d hd => hdialed.answered d (hds.symm ▸ hd), ?_,
    ⟨fun k k' due h => Desk.pending_of_next?_eq_deadline h, ?_⟩, c.pending_shutDown, ?_, ?_⟩
  · rintro before m after rfl d hd a hmem
    exact cause_of_mem_answers s room user urls hn hd hmem
  · intro before m quiet d hm hd hquiet
    have hrun : (start.run (before ++ m :: quiet)).value =
        (((start.run before).value.meet m).value.run quiet).value :=
      value_forEach_append meet before (m :: quiet) start
    have hmeet : ((start.run before).value.meet m).value.dialTimeout = s.dialTimeout :=
      (turn_meet _ m).timeout_eq.trans (htimeout before)
    rw [hrun]
    exact inactive_run (active_meet_of_deadline hm hd) (hmeet.symm ▸ hquiet)
  · intro t a hmem
    rw [hbs] at hmem
    exact (Outlook.mem_settlement.1 hmem).1
  · intro d hd
    rw [hbs]
    exact hdialed.answersTo_eq_one hn _ (hds.symm ▸ hd)

/-- A dial that is superseded, one that a roster answers, one whose deadline comes, one that is cut
short by a hang-up, and one that still waits. -/
def redialing : List Moment :=
  let roster : Roster := ⟨⟨"me"⟩, [⟨"me"⟩], ∅, false, ""⟩
  [⟨0, .none, .intent 0 (.dial "me")⟩, ⟨1, .none, .intent 1 (.dial "me")⟩,
    ⟨2, .none, .relay (.message (.roster roster))⟩, ⟨3, .none, .intent 2 (.dial "me")⟩,
    ⟨9999, .none, .deadline⟩, ⟨10000, .none, .intent 3 (.dial "me")⟩,
    ⟨10001, .none, .intent 4 .hangUp⟩, ⟨10002, .none, .intent 5 (.dial "me")⟩]

/-- The last of these dials has no answer before the call ends, and every one has one then. -/
theorem dials_run_redialing :
    let c := (fresh (.ofRelay "ws://relay") ⟨"room"⟩ ⟨"me"⟩ (.fresh fun _ _ => false) .none).run
      redialing
    let as := Effect.answers c.effects
    let ds := dials (Settings.ofRelay "ws://relay").dialTimeout redialing
    (tickets redialing).Nodup ∧ ds.length = 5 ∧
      (∀ d ∈ ds, answersTo d.ticket as = if c.value.pending = some d then 0 else 1) ∧
      ∀ d ∈ ds, answersTo d.ticket (as ++ Effect.answers c.value.shutDown.effects) = 1 := by
  have hn : (tickets redialing).Nodup := by decide
  obtain ⟨-, hanswered, -, -, -, -, hended⟩ := dials_run (.ofRelay "ws://relay") ⟨"room"⟩ ⟨"me"⟩
    (.fresh fun _ _ => false) redialing hn
  exact ⟨hn, by decide, hanswered, hended⟩

end VideoCall.Call

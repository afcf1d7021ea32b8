import VideoCall.Proofs.Recorder.Effects
import VideoCall.Recorder.History

/-!
# Recording sessions

Sessions are numbered in the order in which they begin, from one on, and each is recorded over a
connection of its own, which is destroyed when the session ends. The service is asked to join a
session at most once. Its replies may come late, repeatedly or for no session at all: a reply goes
into the connection of the session that it is for, while there is that session, and nothing comes of
it otherwise.

All this follows from what one step can do, which is said once, and from the books that every step
keeps: on the sessions begun, the connections opened and destroyed, and the requests.

## Main definitions

* `Effect.signals` : the envelopes passed on to connections.
* `Recorder.Studio.Step` : what one step can do.
* `Recorder.Studio.Orderly` : the books are kept.

## Main results

* `Recorder.Studio.step_apply` : every change is such a step.
* `Recorder.Studio.orderly_run` : the books are kept in every history.
* `Recorder.Studio.sessions_run` : what the books say, and what becomes of the next reply.
-/

namespace VideoCall

open Media Wire Outcome Peer
open Effect (Within)

/-- The envelopes passed on to connections, with the numbers of these. -/
def Effect.signals (es : List Effect) : List (Nat × Signal) :=
  (Effect.lines es).filterMap fun | .told n (.signal s) _ => some (n, s) | _ => none

namespace Recorder

/-- What is known of a session but for its legs. -/
def Session.face (s : Session) : (Nat × Nat) × Bool := (s.numbers, s.offered)

/-! ### Replies -/

section Reply

variable {r : Recorder} {s : Session} (b : Switchboard)

theorem reply_ok (hs : r.session = some s) (x : Signal) :
    r.reply b s.number (.ok x) =
      ⟨none, [.line (.told s.line (.signal x) !b.refusals.refuses .recording (.signal x))]⟩ := by
  unfold reply
  rw [hs]
  dsimp only
  rw [if_pos rfl]
  rfl

theorem reply_error (hs : r.session = some s) (e : JoinError) :
    r.reply b s.number (.error e) = pure (some e) := by
  unfold reply
  rw [hs]
  dsimp only
  rw [if_pos rfl]

/-- Nothing comes of a reply for a session that there is not. -/
theorem reply_other {n : Nat} (hn : ∀ s, r.session = some s → s.number ≠ n)
    (result : Except JoinError Signal) : r.reply b n result = pure none := by
  unfold reply
  split
  · rfl
  · rename_i s hs
    rw [if_neg (hn s hs)]

end Reply

namespace Studio

/-! ### Steps -/

/-- What a change can do, with the session that it begins: legs come or go, the answer of the
service goes into the connection, a session begins, the service is asked to join, or the session
ends. -/
inductive Step (d : Studio) : Change → Option (Nat × Nat) → Outcome Studio → Prop
  /-- Nothing comes of it, but for legs and their connection. -/
  | keep {change : Change} {r : Recorder} {es : List Effect}
      (hsession : r.session.map Session.face = d.recorder.session.map Session.face)
      (hstarted : r.started = d.recorder.started)
      (hes : ∀ e ∈ es, e.Within [.command, .metrics]) (hsignals : Effect.signals es = []) :
      Step d change none ⟨{ d with recorder := r }, es⟩
  | deliver {s : Session} {x : Signal} {accepted : Bool} (hs : d.recorder.session = some s) :
      Step d (.reply s.number (.ok x)) none ⟨d, [.line (.told s.line (.signal x) accepted)]⟩
  | begin {room : RoomId} {user : UserId} {url : Option String} {captured : List LocalStream}
      {s : Session} {options : Options} (hnone : d.recorder.session = none)
      (hs : s.numbers = (d.recorder.started + 1, d.board.opened)) (hoffered : s.offered = false) :
      Step d (.start room user url captured) (some s.numbers)
        ⟨⟨{ d.recorder with session := some s, started := d.recorder.started + 1 },
          { d.board with opened := d.board.opened + 1 }⟩,
          [.line (.opened d.board.opened .recording options),
            .measured (.set .recordingLegs s.legs.size)]⟩
  | ask {s : Session} {x : Signal} (hs : d.recorder.session = some s)
      (hoffered : s.offered = false) :
      Step d (.report (.signal x)) none
        ⟨{ d with recorder := { d.recorder with session := some { s with offered := true } } },
          [.joinRequested s.number ⟨s.base, s.room, s.user, x⟩]⟩
  | finish {change : Change} {s : Session} (hs : d.recorder.session = some s)
      (hchange : change = .stop ∨ (∃ e, change = .report (.failed e)) ∨
        change = .report .closed) :
      Step d change none ⟨{ d with recorder := { d.recorder with session := none } },
        [.line (.destroyed s.line), .measured (.set .recordingLegs 0)]⟩

variable (d : Studio)

/-- A step that does nothing at all. -/
theorem Step.idle (change : Change) : Step d change none (pure d) :=
  .keep rfl rfl (fun _ he => absurd he List.not_mem_nil) rfl

/-- Legs are told of streams, and of no envelope. -/
private theorem signals_addLeg (r : Recorder) (b : Switchboard) (m : LocalStream) :
    Effect.signals (r.addLeg b m).effects = [] := by
  unfold addLeg
  split
  · rfl
  · split
    · rfl
    · rw [effects_bind]
      cases (b.tell .recording _ (.addStream m.stream)).value <;> rfl

private theorem signals_removeLeg (r : Recorder) (b : Switchboard) (m : LocalStream) :
    Effect.signals (r.removeLeg b m).effects = [] := by
  unfold removeLeg
  split
  · rfl
  · split <;> rfl

/-- Of a session only the legs change when streams come and go. -/
private theorem face_withLegs (r : Recorder) (s : Session) (legs : Table StreamId Stream)
    (hs : r.session = some s) :
    { r with session := some { s with legs := legs } }.session.map Session.face =
      r.session.map Session.face := by
  rw [hs]
  rfl

theorem step_start (room : RoomId) (user : UserId) (url : Option String)
    (captured : List LocalStream) :
    Step d (.start room user url captured) (d.begun? (.start room user url captured))
      (d.apply (.start room user url captured)) := by
  rw [begun?, apply]
  rcases d.recorder.start_cases d.board room user url captured with
    ⟨es, hstart, hes⟩ | ⟨s, options, hnone, hs, hoffered, hstart⟩
  · have hsignals : Effect.signals es = [] := by
      unfold Effect.signals Effect.lines
      rw [List.filterMap_filterMap, List.filterMap_eq_nil_iff]
      intro e he
      obtain ⟨options, rfl⟩ := hes e he
      rfl
    have hwithin : ∀ e ∈ es, e.Within [.command, .metrics] := by
      intro e he
      obtain ⟨options, rfl⟩ := hes e he
      exact List.mem_cons_self
    have hkeep : Step d (.start room user url captured) none ⟨d, es⟩ :=
      .keep rfl rfl hwithin hsignals
    rw [hstart]
    rw [← List.append_nil es] at hkeep
    exact hkeep
  · rw [hstart]
    exact .begin hnone hs hoffered

/-- What a step of the recorder leads to in the studio. -/
private theorem withRecorder (o : Outcome Recorder) :
    (o >>= fun recorder => pure { d with recorder := recorder } : Outcome Studio) =
      ⟨{ d with recorder := o.value }, o.effects⟩ :=
  congrArg (Outcome.mk _) (List.append_nil o.effects)

theorem step_stop {change : Change} (hchange : change = .stop ∨
    (∃ e, change = .report (.failed e)) ∨ change = .report .closed) :
    Step d change none
      ⟨{ d with recorder := d.recorder.stop.value.1 }, d.recorder.stop.effects⟩ := by
  unfold stop
  split
  · exact .idle d change
  · rename_i s hs
    exact .finish hs hchange

theorem step_report (r : Report) :
    Step d (.report r) none ⟨{ d with recorder := (d.recorder.report r).value },
      (d.recorder.report r).effects⟩ := by
  have hstop : ∀ {r : Report}, (∃ e, Change.report r = .report (.failed e)) ∨
      Change.report r = .report .closed →
      Step d (.report r) none ⟨{ d with recorder := ((·.1) <$> d.recorder.stop).value },
        ((·.1) <$> d.recorder.stop).effects⟩ := by
    intro r hr
    rw [effects_map]
    exact d.step_stop (Or.inr hr)
  cases r with
  | signal x =>
    rw [report, offer]
    split
    · exact .idle d _
    · rename_i s hs
      split
      · exact .idle d _
      · rename_i hoffered
        exact .ask hs (by simpa using hoffered)
  | failed e => exact hstop (Or.inl ⟨e, rfl⟩)
  | closed => exact hstop (Or.inr rfl)
  | _ => exact .idle d _

theorem step_reply (n : Nat) (result : Except JoinError Signal) :
    Step d (.reply n result) none ⟨d, (d.recorder.reply d.board n result).effects⟩ := by
  by_cases hn : ∃ s, d.recorder.session = some s ∧ s.number = n
  · obtain ⟨s, hs, rfl⟩ := hn
    cases result with
    | error e =>
      rw [reply_error d.board hs]
      exact .idle d _
    | ok x =>
      rw [reply_ok d.board hs]
      exact .deliver hs
  · rw [reply_other d.board fun s hs he => hn ⟨s, hs, he⟩]
    exact .idle d _

/-- Every change is a step. -/
theorem step_apply (change : Change) : Step d change (d.begun? change) (d.apply change) := by
  cases change with
  | start room user url captured => exact d.step_start room user url captured
  | stop =>
    have hstop : Step d .stop none _ := d.step_stop (Or.inl rfl)
    rw [← List.append_nil d.recorder.stop.effects] at hstop
    exact hstop
  | addLeg m =>
    rw [apply, withRecorder]
    exact .keep (addLeg_keeps (p := fun r => r.session.map Session.face) face_withLegs _ _ _)
      (addLeg_keeps (p := Recorder.started) (fun _ _ _ _ => rfl) _ _ _) (within_addLeg _ _ _)
      (signals_addLeg _ _ _)
  | removeLeg m =>
    rw [apply, withRecorder]
    exact .keep (removeLeg_keeps (p := fun r => r.session.map Session.face) face_withLegs _ _ _)
      (removeLeg_keeps (p := Recorder.started) (fun _ _ _ _ => rfl) _ _ _)
      (within_removeLeg _ _ _) (signals_removeLeg _ _ _)
  | report r =>
    rw [apply, withRecorder]
    exact d.step_report r
  | reply n result =>
    have hreply := d.step_reply n result
    rw [← List.append_nil (d.recorder.reply d.board n result).effects] at hreply
    exact hreply

/-! ### The books -/

/-- The books on the sessions begun, as pairs of numbers, and on the effects so far. -/
structure Orderly (d : Studio) (es : List Effect) (begun : List (Nat × Nat)) : Prop where
  /-- Sessions are numbered in order, from one on. -/
  numbers : begun.map Prod.fst = List.range' 1 d.recorder.started
  /-- Each session has a connection of its own. -/
  lines : begun.map Prod.snd = Effect.recordingLines es
  ascending : (begun.map Prod.snd).Pairwise (· < ·)
  below : ∀ n ∈ begun.map Prod.snd, n < d.board.opened
  /-- All connections are destroyed but that of the session that there is. -/
  destroyed : begun.map Prod.snd =
    Effect.destroyed es ++ (d.recorder.session.map Session.line).toList
  /-- The session that there is began last. -/
  latest : ∀ s, d.recorder.session = some s → begun.getLast? = some s.numbers
  /-- The service is asked at most once for each session, in order. -/
  asked : ((Effect.joins es).map Prod.fst).Pairwise (· < ·)
  asked_le : ∀ k ∈ (Effect.joins es).map Prod.fst, 1 ≤ k ∧ k ≤ d.recorder.started
  unasked : ∀ s, d.recorder.session = some s → s.offered = false →
    ∀ k ∈ (Effect.joins es).map Prod.fst, k < s.number

namespace Orderly

variable {d : Studio} {es : List Effect} {begun : List (Nat × Nat)}

theorem fresh (defaultBase : String) (iceServers : List IceServer) :
    Orderly (.fresh defaultBase iceServers) [] [] where
  numbers := rfl
  lines := rfl
  ascending := .nil
  below _ h := absurd h List.not_mem_nil
  destroyed := rfl
  latest _ h := by cases h
  asked := .nil
  asked_le _ h := absurd h List.not_mem_nil
  unasked _ h := by cases h

/-- What goes on elsewhere has no part in the books. -/
theorem upTo (h : Orderly d es begun) (m : Moment) : Orderly (d.upTo m) es begun :=
  { h with below := fun n hn => Nat.lt_add_right m.elsewhere (h.below n hn) }

/-- The session that there is has the number of sessions so far. -/
theorem number_eq (h : Orderly d es begun) {s : Session} (hs : d.recorder.session = some s) :
    s.number = d.recorder.started := by
  have hlast : (begun.map Prod.fst).getLast? = some s.number := by
    rw [List.getLast?_map, h.latest s hs]
    rfl
  rw [h.numbers, List.getLast?_range'] at hlast
  split at hlast
  · cases hlast
  · have := Option.some.inj hlast
    omega

/-- Nothing is opened, asked or destroyed, and the sessions are the same. -/
theorem stay (h : Orderly d es begun) {d' : Studio} {fs : List Effect}
    (hsession : d'.recorder.session.map Session.face = d.recorder.session.map Session.face)
    (hstarted : d'.recorder.started = d.recorder.started) (hboard : d'.board = d.board)
    (ho : Effect.opened fs = []) (hd : Effect.destroyed fs = []) (hj : Effect.joins fs = []) :
    Orderly d' (es ++ fs) begun := by
  have hline : d'.recorder.session.map Session.line = d.recorder.session.map Session.line := by
    have := congrArg (Option.map fun f => f.1.2) hsession
    rwa [Option.map_map, Option.map_map] at this
  have hbefore : ∀ s', d'.recorder.session = some s' →
      ∃ s, d.recorder.session = some s ∧ s.face = s'.face := by
    intro s' hs'
    rw [hs', Option.map_some] at hsession
    exact Option.map_eq_some_iff.1 hsession.symm
  have hjoins : Effect.joins (es ++ fs) = Effect.joins es := by
    rw [Effect.joins_append, hj, List.append_nil]
  constructor
  · rw [hstarted]
    exact h.numbers
  · rw [Effect.recordingLines_append_eq ho]
    exact h.lines
  · exact h.ascending
  · rw [hboard]
    exact h.below
  · rw [Effect.destroyed_append, hd, List.append_nil, hline]
    exact h.destroyed
  · intro s' hs'
    obtain ⟨s, hs, hface⟩ := hbefore s' hs'
    rw [h.latest s hs]
    exact congrArg (fun f => some f.1) hface
  · rw [hjoins]
    exact h.asked
  · rw [hjoins, hstarted]
    exact h.asked_le
  · intro s' hs' hoffered
    obtain ⟨s, hs, hface⟩ := hbefore s' hs'
    have hnumber : s.number = s'.number := congrArg (fun f => f.1.1) hface
    have hoffered' : s.offered = false := (congrArg Prod.snd hface).trans hoffered
    rw [hjoins, ← hnumber]
    exact h.unasked s hs hoffered'

/-- The next session begins, with the next connection. -/
theorem begin (h : Orderly d es begun) {s : Session} {options : Options} {legs : Nat}
    (hnone : d.recorder.session = none)
    (hs : s.numbers = (d.recorder.started + 1, d.board.opened)) :
    Orderly ⟨{ d.recorder with session := some s, started := d.recorder.started + 1 },
        { d.board with opened := d.board.opened + 1 }⟩
      (es ++ [.line (.opened d.board.opened .recording options),
        .measured (.set .recordingLegs legs)])
      (begun ++ [s.numbers]) := by
  have hnumber : s.number = d.recorder.started + 1 := congrArg Prod.fst hs
  have hline : s.line = d.board.opened := congrArg Prod.snd hs
  have hjoins : ∀ fs, Effect.joins fs = [] → Effect.joins (es ++ fs) = Effect.joins es := by
    intro fs hfs
    rw [Effect.joins_append, hfs, List.append_nil]
  have hclosed : begun.map Prod.snd = Effect.destroyed es := by
    rw [h.destroyed, hnone]
    exact List.append_nil _
  constructor
  · rw [List.map_append, h.numbers, hs, ← List.range'_append_1]
    simp [Nat.add_comm]
  · rw [List.map_append, h.lines, Effect.recordingLines_append, hs]
    rfl
  · rw [List.map_append, hs]
    refine List.pairwise_append.2 ⟨h.ascending, List.pairwise_singleton _ _, ?_⟩
    intro m hm n hn
    rw [List.mem_singleton.1 hn]
    exact h.below m hm
  · intro n hn
    rw [List.map_append, hs] at hn
    change n < d.board.opened + 1
    rcases List.mem_append.1 hn with hn | hn
    · exact Nat.lt_succ_of_lt (h.below n hn)
    · rw [List.mem_singleton.1 hn]
      exact Nat.lt_succ_self _
  · rw [List.map_append, hclosed, Effect.destroyed_append]
    exact congrArg (· ++ [s.line]) (List.append_nil _).symm
  · intro s' hs'
    rw [List.getLast?_concat, Option.some.inj hs']
  · rw [hjoins _ rfl]
    exact h.asked
  · intro k hk
    rw [hjoins _ rfl] at hk
    exact ⟨(h.asked_le k hk).1, Nat.le_succ_of_le (h.asked_le k hk).2⟩
  · intro s' hs' _ k hk
    rw [hjoins _ rfl] at hk
    rw [← Option.some.inj hs', hnumber]
    exact Nat.lt_succ_of_le (h.asked_le k hk).2

/-- The service is asked to join the session that there is. -/
theorem ask (h : Orderly d es begun) {s : Session} (hs : d.recorder.session = some s)
    (hoffered : s.offered = false) (r : JoinRequest) :
    Orderly { d with recorder := { d.recorder with session := some { s with offered := true } } }
      (es ++ [.joinRequested s.number r]) begun := by
  have hjoins : (Effect.joins (es ++ [.joinRequested s.number r])).map Prod.fst =
      (Effect.joins es).map Prod.fst ++ [s.number] := by
    rw [Effect.joins_append, List.map_append]
    rfl
  constructor
  · exact h.numbers
  · exact h.lines.trans (Effect.recordingLines_append_eq rfl es).symm
  · exact h.ascending
  · exact h.below
  · rw [Effect.destroyed_append, h.destroyed, hs]
    exact congrArg (· ++ [s.line]) (List.append_nil _).symm
  · intro s' hs'
    rw [h.latest s hs, ← Option.some.inj hs']
    rfl
  · rw [hjoins]
    refine List.pairwise_append.2 ⟨h.asked, List.pairwise_singleton _ _, ?_⟩
    intro k hk n hn
    rw [List.mem_singleton.1 hn]
    exact h.unasked s hs hoffered k hk
  · intro k hk
    rw [hjoins] at hk
    rcases List.mem_append.1 hk with hk | hk
    · exact h.asked_le k hk
    · have hnumber := h.number_eq hs
      have hone : begun ≠ [] := by
        rintro rfl
        cases h.latest s hs
      have hlength := congrArg List.length h.numbers
      rw [List.length_map, List.length_range'] at hlength
      have hpos := List.length_pos_iff.2 hone
      rw [List.mem_singleton.1 hk]
      change 1 ≤ s.number ∧ s.number ≤ d.recorder.started
      omega
  · intro s' hs' hnot
    rw [← Option.some.inj hs'] at hnot
    cases hnot

/-- The session ends, with its connection. -/
theorem finish (h : Orderly d es begun) {s : Session} (hs : d.recorder.session = some s) :
    Orderly { d with recorder := { d.recorder with session := none } }
      (es ++ [.line (.destroyed s.line), .measured (.set .recordingLegs 0)]) begun := by
  have hjoins : ∀ fs, Effect.joins fs = [] → Effect.joins (es ++ fs) = Effect.joins es := by
    intro fs hfs
    rw [Effect.joins_append, hfs, List.append_nil]
  constructor
  · exact h.numbers
  · exact h.lines.trans (Effect.recordingLines_append_eq rfl es).symm
  · exact h.ascending
  · exact h.below
  · rw [h.destroyed, hs, Effect.destroyed_append]
    exact (List.append_nil _).symm
  · intro s' hs'
    cases hs'
  · rw [hjoins _ rfl]
    exact h.asked
  · rw [hjoins _ rfl]
    exact h.asked_le
  · intro s' hs'
    cases hs'

/-- Every step keeps the books. -/
theorem step (h : Orderly d es begun) {change : Change} {b : Option (Nat × Nat)}
    {o : Outcome Studio} (ho : Step d change b o) :
    Orderly o.value (es ++ o.effects) (begun ++ b.toList) := by
  cases ho with
  | keep hsession hstarted hes _ =>
    rw [Option.toList_none, List.append_nil]
    exact h.stay hsession hstarted rfl (Effect.opened_eq_nil hes (by decide))
      (Effect.destroyed_eq_nil hes (by decide)) (Effect.joins_eq_nil hes (by decide))
  | deliver hs =>
    rw [Option.toList_none, List.append_nil]
    exact h.stay rfl rfl rfl rfl rfl rfl
  | begin hnone hs _ => exact h.begin hnone hs
  | ask hs hoffered =>
    rw [Option.toList_none, List.append_nil]
    exact h.ask hs hoffered _
  | finish hs _ =>
    rw [Option.toList_none, List.append_nil]
    exact h.finish hs

end Orderly

/-- The books are kept in every history. -/
theorem orderly_run (moments : List Moment) {d : Studio} {es : List Effect}
    {begun : List (Nat × Nat)} (h : Orderly d es begun) :
    Orderly (d.run moments).value (es ++ (d.run moments).effects) (begun ++ d.begun moments) := by
  induction moments generalizing d es begun with
  | nil => simpa [run, Studio.begun] using h
  | cons m ms ih =>
    have hstep := (h.upTo m).step ((d.upTo m).step_apply m.change)
    have hrest := ih hstep
    rw [List.append_assoc, List.append_assoc] at hrest
    exact hrest

/-- The sessions of one more moment come last. -/
theorem begun_concat (d : Studio) (moments : List Moment) (m : Moment) :
    d.begun (moments ++ [m]) =
      d.begun moments ++ (((d.run moments).value.upTo m).begun? m.change).toList := by
  induction moments generalizing d with
  | nil => exact (List.append_nil _).trans (List.nil_append _).symm
  | cons m' moments ih =>
    rw [List.cons_append, begun, ih, begun, List.append_assoc]
    rfl

/-! ### What a moment does -/

section Moment

variable {d : Studio} {change : Change} {b : Option (Nat × Nat)} {o : Outcome Studio}

/-- A connection is destroyed when its session ends. -/
theorem Step.destroyed_eq (h : Step d change b o) :
    Effect.destroyed o.effects =
      if o.value.recorder.session.map Session.numbers = d.recorder.session.map Session.numbers
      then [] else (d.recorder.session.map Session.line).toList := by
  cases h with
  | keep hsession _ hes _ =>
    have hnumbers := congrArg (Option.map Prod.fst) hsession
    rw [Option.map_map, Option.map_map] at hnumbers
    rw [Effect.destroyed_eq_nil hes (by decide)]
    exact (if_pos hnumbers).symm
  | deliver _ => exact (if_pos rfl).symm
  | begin hnone _ _ =>
    rw [hnone]
    exact (ite_self _).symm
  | ask hs _ =>
    rw [hs]
    exact (if_pos rfl).symm
  | finish hs _ =>
    rw [hs]
    rfl

/-- An envelope goes into a connection only as the answer of the service, for its session. -/
theorem Step.reply_of_mem_signals (h : Step d change b o) {line : Nat} {x : Signal}
    (hx : (line, x) ∈ Effect.signals o.effects) :
    ∃ s, d.recorder.session = some s ∧ s.line = line ∧ change = .reply s.number (.ok x) := by
  cases h with
  | keep _ _ _ hsignals =>
    rw [hsignals] at hx
    cases hx
  | @deliver s y _ hs =>
    obtain ⟨rfl, rfl⟩ := Prod.mk.inj (List.mem_singleton.1 hx)
    exact ⟨s, hs, rfl, rfl⟩
  | begin _ _ _ => cases hx
  | ask _ _ => cases hx
  | finish _ _ => cases hx

theorem mem_signals_meet (d : Studio) (m : Moment) (line : Nat) (x : Signal) :
    (line, x) ∈ Effect.signals (d.meet m).effects ↔
      ∃ s, d.recorder.session = some s ∧ s.line = line ∧ m.change = .reply s.number (.ok x) := by
  constructor
  · exact ((d.upTo m).step_apply m.change).reply_of_mem_signals
  · rintro ⟨s, hs, rfl, hchange⟩
    have hreply := reply_ok (r := (d.upTo m).recorder) (d.upTo m).board hs x
    rw [meet, hchange, apply, hreply]
    exact List.mem_singleton_self _

/-- A start that answers that it began a session began the next one, with the next connection, and
any other start began none. -/
theorem begun?_start (d : Studio) (room : RoomId) (user : UserId) (url : Option String)
    (captured : List LocalStream) :
    let change := Change.start room user url captured
    let started := (d.recorder.start d.board room user url captured).value.2.2
    d.begun? change =
        (if started then some (d.recorder.started + 1, d.board.opened) else none) ∧
      (started = true →
        (d.apply change).value.recorder.session.map Session.numbers = d.begun? change) := by
  dsimp only
  rw [begun?, apply]
  rcases d.recorder.start_cases d.board room user url captured with
    ⟨es, hstart, -⟩ | ⟨s, options, -, hs, -, hstart⟩
  · rw [hstart]
    exact ⟨rfl, fun h => absurd h Bool.false_ne_true⟩
  · rw [hstart]
    exact ⟨congrArg some hs, fun _ => rfl⟩

end Moment

/-- In every history the sessions are numbered in order from one on, and each has a connection of
its own. All of these are destroyed once, but that of the session that there is, which began last.
The service is asked to join at most once for each session. And whatever comes next: a start that
answers that it began a session began the one with the next number and the next connection, which is
the session that there is then, and any other start began none; a connection is destroyed when its
session ends; an envelope goes into the connection of the session that there is, as the reply to
that session; nothing comes of a reply to another one, and a failed join is told and changes
nothing. -/
theorem sessions_run (defaultBase : String) (iceServers : List IceServer)
    (moments : List Moment) :
    let start := fresh defaultBase iceServers
    let es := (start.run moments).effects
    let d := (start.run moments).value
    let begun := start.begun moments
    (begun.map Prod.fst = List.range' 1 begun.length ∧
      begun.map Prod.snd = Effect.recordingLines es ∧ (begun.map Prod.snd).Nodup) ∧
    (begun.map Prod.snd =
        Effect.destroyed es ++ (d.recorder.session.map Session.line).toList ∧
      ∀ s, d.recorder.session = some s → begun.getLast? = some s.numbers) ∧
    (((Effect.joins es).map Prod.fst).Nodup ∧
      ∀ k ∈ (Effect.joins es).map Prod.fst, k ∈ begun.map Prod.fst) ∧
    ∀ m : Moment,
      (∀ room user url captured, m.change = .start room user url captured →
        let started := (d.recorder.start (d.upTo m).board room user url captured).value.2.2
        let numbers := (begun.length + 1, (d.upTo m).board.opened)
        start.begun (moments ++ [m]) = begun ++ (if started then [numbers] else []) ∧
          (started = true →
            (d.meet m).value.recorder.session.map Session.numbers = some numbers)) ∧
      Effect.destroyed (d.meet m).effects =
        (if (d.meet m).value.recorder.session.map Session.numbers =
          d.recorder.session.map Session.numbers
        then [] else (d.recorder.session.map Session.line).toList) ∧
      (∀ line x, (line, x) ∈ Effect.signals (d.meet m).effects ↔
        ∃ s, d.recorder.session = some s ∧ s.line = line ∧ m.change = .reply s.number (.ok x)) ∧
      ∀ n result, m.change = .reply n result →
        (d.meet m).value.recorder = d.recorder ∧
        ((∀ s, d.recorder.session = some s → s.number ≠ n) →
          d.recorder.reply (d.upTo m).board n result = pure none) ∧
        ∀ s e, d.recorder.session = some s → s.number = n → result = .error e →
          d.recorder.reply (d.upTo m).board n result = pure (some e) := by
  intro start es d begun
  have h : Orderly d es begun := orderly_run moments (.fresh defaultBase iceServers)
  have hlength : begun.length = d.recorder.started := by
    have := congrArg List.length h.numbers
    rwa [List.length_map, List.length_range'] at this
  refine ⟨⟨hlength ▸ h.numbers, h.lines, h.ascending.imp Nat.ne_of_lt⟩, ⟨h.destroyed, h.latest⟩,
    ⟨h.asked.imp Nat.ne_of_lt, fun k hk => ?_⟩, fun m => ⟨?_, ?_, d.mem_signals_meet m, ?_⟩⟩
  · rw [h.numbers, List.mem_range'_1]
    have := h.asked_le k hk
    omega
  · intro room user url captured hchange started numbers
    obtain ⟨hbegun, hsession⟩ := (d.upTo m).begun?_start room user url captured
    have hnumbers : numbers = (d.recorder.started + 1, (d.upTo m).board.opened) := by
      rw [← hlength]
    rw [← hchange] at hbegun hsession
    rw [begun_concat, hbegun, hnumbers]
    refine ⟨congrArg (begun ++ ·) (apply_ite Option.toList _ _ _), fun hstarted => ?_⟩
    exact (hsession hstarted).trans (hbegun.trans (if_pos hstarted))
  · exact ((d.upTo m).step_apply m.change).destroyed_eq
  · intro n result hchange
    refine ⟨?_, fun hn => reply_other (d.upTo m).board hn result, ?_⟩
    · rw [meet, hchange]
      rfl
    · rintro s e hs rfl rfl
      exact reply_error (d.upTo m).board hs e

end Studio

end Recorder

end VideoCall

import Mathlib.Data.List.Basic
import Mathlib.Data.List.Induction
import VideoCall.Peer.History
import VideoCall.Proofs.Peer.Mesh

/-!
# The phase of a connection shows its history

How far a connection is goes by the envelopes that came in for it and by its reports. A failure, or
the end, closes it for good. Otherwise it is connected if it last reported so, and did not start to
negotiate again; and it is as it was created while neither side did anything about it. What else
happens in the mesh does not matter.

## Main definitions

* `Peer.Stimulus` : what bears on the phase of a connection.
* `Peer.Stimulus.Ends`, `Peer.Stimulus.Settles`, `Peer.Stimulus.Starts` : what several of them in a
  row amount to.
* `Peer.Exchange.phase?` : the phase of the connection to a participant.

## Main results

* `Peer.Phase.stirred_eq_closed_iff`, … : the phase after one more stimulus.
* `Peer.Exchange.phase?_apply` : of a change that does not close the connection, only the stimulus
  matters.
* `Peer.Exchange.phase_run` : the phase in every history from the creation of the connection on.
-/

namespace VideoCall.Peer

open Media Wire Outcome

/-- What bears on the phase of a connection. -/
inductive Stimulus
  /-- An envelope came in from the other side. -/
  | envelope
  | report (r : Report)

namespace Stimulus

variable (ss ts : List Stimulus) (s : Stimulus)

/-- The connection failed, or came to its end. -/
def Ends : Prop := (∃ e, .report (.failed e) ∈ ss) ∨ .report .closed ∈ ss

/-- There was an envelope from either side, or the connection reported that it is connected. -/
def Starts : Prop :=
  .envelope ∈ ss ∨ (∃ e, .report (.signal e) ∈ ss) ∨ .report .connected ∈ ss

/-- The connection reported that it is connected, and did not negotiate again after the last such
report. -/
def Settles : Prop :=
  ∃ before after, ss = before ++ .report .connected :: after ∧
    .report .connected ∉ after ∧ .report .renegotiating ∉ after

theorem ends_append_iff : Ends (ss ++ ts) ↔ Ends ss ∨ Ends ts := by
  simp only [Ends, List.mem_append, exists_or]
  tauto

theorem starts_append_iff : Starts (ss ++ ts) ↔ Starts ss ∨ Starts ts := by
  simp only [Starts, List.mem_append, exists_or]
  tauto

theorem settles_concat_iff :
    Settles (ss ++ [s]) ↔
      s = .report .connected ∨ s ≠ .report .renegotiating ∧ Settles ss := by
  constructor
  · rintro ⟨before, after, h, hconnected, hrenegotiating⟩
    rcases List.eq_nil_or_concat' after with rfl | ⟨after, s', rfl⟩
    · obtain ⟨-, h⟩ := List.append_inj' h rfl
      exact .inl (List.cons.inj h).1
    · rw [← List.cons_append, ← List.append_assoc] at h
      obtain ⟨rfl, hs⟩ := List.append_inj' h rfl
      obtain rfl := List.singleton_inj.1 hs
      rw [List.mem_append, not_or] at hconnected hrenegotiating
      exact .inr ⟨fun h => hrenegotiating.2 (h ▸ List.mem_singleton_self _),
        before, after, rfl, hconnected.1, hrenegotiating.1⟩
  · rintro (rfl | ⟨hs, before, after, rfl, hconnected, hrenegotiating⟩)
    · exact ⟨ss, [], rfl, List.not_mem_nil, List.not_mem_nil⟩
    · by_cases hs' : s = .report .connected
      · subst hs'
        exact ⟨_, [], rfl, List.not_mem_nil, List.not_mem_nil⟩
      · refine ⟨before, after ++ [s], by simp, ?_, ?_⟩ <;>
          simp_all [eq_comm]

theorem Settles.starts {ss : List Stimulus} (h : Settles ss) : Starts ss := by
  obtain ⟨before, after, rfl, -, -⟩ := h
  exact .inr (.inr (List.mem_append_right _ List.mem_cons_self))

end Stimulus

namespace Phase

/-- The phase after a stimulus. -/
def stirred (p : Phase) : Stimulus → Phase
  | .envelope => p.afterSignal
  | .report r => p.after r

variable (p : Phase) (s : Stimulus)

theorem stirred_eq_closed_iff : p.stirred s = closed ↔ p = closed ∨ Stimulus.Ends [s] := by
  cases s with
  | envelope => cases p <;> simp [stirred, afterSignal, Stimulus.Ends]
  | report r => cases p <;> cases r <;> simp [stirred, after, Stimulus.Ends]

theorem stirred_eq_created_iff :
    p.stirred s = created ↔ p = created ∧ ¬ Stimulus.Ends [s] ∧ ¬ Stimulus.Starts [s] := by
  cases s with
  | envelope => cases p <;> simp [stirred, afterSignal, Stimulus.Ends, Stimulus.Starts]
  | report r =>
    cases p <;> cases r <;> simp [stirred, after, Stimulus.Ends, Stimulus.Starts]

theorem stirred_eq_connected_iff :
    p.stirred s = connected ↔ p ≠ closed ∧ ¬ Stimulus.Ends [s] ∧
      (s = .report .connected ∨ s ≠ .report .renegotiating ∧ p = connected) := by
  cases s with
  | envelope => cases p <;> simp [stirred, afterSignal, Stimulus.Ends]
  | report r => cases p <;> cases r <;> simp [stirred, after, Stimulus.Ends]

/-- The phase after several stimuli, from the creation of a connection on. -/
def ofStimuli (ss : List Stimulus) : Phase := ss.foldl stirred created

variable (ss : List Stimulus)

theorem ofStimuli_concat : ofStimuli (ss ++ [s]) = (ofStimuli ss).stirred s := by
  unfold ofStimuli
  rw [List.foldl_append]
  rfl

theorem ofStimuli_eq_closed_iff : ofStimuli ss = closed ↔ Stimulus.Ends ss := by
  induction ss using List.reverseRecOn with
  | nil => simp [ofStimuli, Stimulus.Ends]
  | append_singleton ss s ih =>
    rw [ofStimuli_concat, stirred_eq_closed_iff, ih, Stimulus.ends_append_iff]

theorem ofStimuli_eq_created_iff :
    ofStimuli ss = created ↔ ¬ Stimulus.Ends ss ∧ ¬ Stimulus.Starts ss := by
  induction ss using List.reverseRecOn with
  | nil => simp [ofStimuli, Stimulus.Ends, Stimulus.Starts]
  | append_singleton ss s ih =>
    rw [ofStimuli_concat, stirred_eq_created_iff, ih, Stimulus.ends_append_iff,
      Stimulus.starts_append_iff]
    tauto

theorem ofStimuli_eq_connected_iff :
    ofStimuli ss = connected ↔ ¬ Stimulus.Ends ss ∧ Stimulus.Settles ss := by
  induction ss using List.reverseRecOn with
  | nil => simp [ofStimuli, Stimulus.Settles]
  | append_singleton ss s ih =>
    rw [ofStimuli_concat, stirred_eq_connected_iff, Ne, ofStimuli_eq_closed_iff, ih,
      Stimulus.ends_append_iff, Stimulus.settles_concat_iff]
    tauto

/-- A connection in any other case is negotiating. -/
theorem ofStimuli_eq_signaling_iff :
    ofStimuli ss = signaling ↔
      ¬ Stimulus.Ends ss ∧ ¬ Stimulus.Settles ss ∧ Stimulus.Starts ss := by
  have hclosed := ofStimuli_eq_closed_iff ss
  have hcreated := ofStimuli_eq_created_iff ss
  have hconnected := ofStimuli_eq_connected_iff ss
  cases h : ofStimuli ss <;> simp_all

end Phase

/-! ### The mesh -/

/-- What a change has to do with the phase of the connection to a participant. -/
def Mesh.Change.stimulus? (u : UserId) : Mesh.Change → Option Stimulus
  | .signal user _ => if user = u then some .envelope else none
  | .report user r => if user = u then some (.report r) else none
  | _ => none

/-- Whether a change closes the connection to a participant. -/
def Mesh.Change.closes (u : UserId) : Mesh.Change → Bool
  | .close user _ => user = u
  | .closeAll _ => true
  | _ => false

namespace Exchange

variable (d : Exchange) {u : UserId}

/-- The phase of the connection to a participant, if there is one. -/
def phase? (u : UserId) : Option Phase := (d.mesh.lines.get? u).map Line.phase

/-- Of a change that does not close the connection, only the stimulus matters. -/
theorem phase?_apply {p : Phase} (hp : d.phase? u = some p) {change : Mesh.Change}
    (hchange : change.closes u = false) :
    (d.apply change).value.phase? u = some ((change.stimulus? u).elim p p.stirred) := by
  obtain ⟨l, hl, rfl⟩ := Option.map_eq_some_iff.1 hp
  have hlines (hget : (d.apply change).value.mesh.lines.get? u =
      some { l with phase := (change.stimulus? u).elim l.phase l.phase.stirred }) :
      (d.apply change).value.phase? u =
        some ((change.stimulus? u).elim l.phase l.phase.stirred) :=
    congrArg (Option.map Line.phase) hget
  cases change with
  | create user initiator streams =>
    refine hlines ((Mesh.get?_create _ _ user u initiator streams).trans ((if_neg ?_).trans hl))
    rintro ⟨rfl, hnone, -⟩
    cases hnone.symm.trans hl
  | signal user s =>
    refine hlines ((Mesh.get?_signal _ _ user u s).trans ?_)
    by_cases h : u = user
    · subst h
      simp [Mesh.Change.stimulus?, Phase.stirred, hl]
    · simp [h, Ne.symm h, Mesh.Change.stimulus?, hl]
  | report user r =>
    refine hlines ((Mesh.get?_report _ user u r).trans ?_)
    by_cases h : u = user
    · subst h
      simp [Mesh.Change.stimulus?, Phase.stirred, hl]
    · simp [h, Ne.symm h, Mesh.Change.stimulus?, hl]
  | close user reason =>
    refine hlines ((Mesh.get?_close _ user u reason).trans ((if_neg ?_).trans hl))
    exact fun h => of_decide_eq_false hchange h.symm
  | closeAll reason => cases hchange
  | tellAll c => exact hp

/-- A connection that a change brings is as it was created. -/
theorem phase?_apply_of_none (hnone : d.mesh.lines.get? u = none) (change : Mesh.Change) :
    (d.apply change).value.phase? u = none ∨
      (d.apply change).value.phase? u = some .created := by
  have hstays (hget : (d.apply change).value.mesh.lines.get? u = none) :
      (d.apply change).value.phase? u = none :=
    congrArg (Option.map Line.phase) hget
  cases change with
  | create user initiator streams =>
    have hget := Mesh.get?_create d.board d.mesh user u initiator streams
    split at hget
    · exact .inr (congrArg (Option.map Line.phase) hget)
    · exact .inl (hstays (hget.trans hnone))
  | signal user s =>
    refine .inl (hstays ((Mesh.get?_signal _ _ user u s).trans ?_))
    rw [hnone, Option.map_none, ite_self]
  | report user r =>
    refine .inl (hstays ((Mesh.get?_report _ user u r).trans ?_))
    rw [hnone, Option.map_none, ite_self]
  | close user reason =>
    refine .inl (hstays ((Mesh.get?_close _ user u reason).trans ?_))
    rw [hnone, ite_self]
  | closeAll reason => exact .inl (hstays (Mesh.get?_closeAll _ u reason))
  | tellAll c => exact .inl (hstays hnone)

/-! ### Histories -/

/-- What has to do, in a history, with the phase of the connection to a participant. -/
def stimuli (u : UserId) (moments : List Mesh.Moment) : List Stimulus :=
  moments.filterMap fun m => m.change.stimulus? u

/-- While a connection is not closed, its phase goes by the stimuli. -/
theorem phase?_run {p : Phase} (hp : d.phase? u = some p) {moments : List Mesh.Moment}
    (hmoments : ∀ m ∈ moments, m.change.closes u = false) :
    (d.run moments).value.phase? u = some ((stimuli u moments).foldl Phase.stirred p) := by
  induction moments generalizing d p with
  | nil => exact hp
  | cons m moments ih =>
    have hmeet : (d.meet m).value.phase? u =
        some ((m.change.stimulus? u).elim p p.stirred) :=
      (d.upTo m).phase?_apply hp (hmoments m List.mem_cons_self)
    refine (ih (d.meet m).value hmeet fun m' hm' => hmoments m' (.tail _ hm')).trans ?_
    rw [stimuli, stimuli, List.filterMap_cons]
    cases m.change.stimulus? u <;> rfl

/-- From the moment on that brings the connection to a participant, and while it is not closed:

* it counts as closed if, and only if, it failed or came to its end;
* otherwise it is connected if, and only if, it reported so, and did not start to negotiate again
  after its last such report;
* otherwise it is as it was created if, and only if, there was no envelope from either side and no
  report that it is connected;
* in any other case it is negotiating;
* it never leaves the closed phase, and never enters that of its creation again. -/
theorem phase_run (d : Exchange) (u : UserId) (m : Mesh.Moment) (moments : List Mesh.Moment)
    (hbefore : d.mesh.contains u = false) (hcreated : (d.meet m).value.mesh.contains u = true)
    (hmoments : ∀ m' ∈ moments, m'.change.closes u = false) :
    let phase := fun moments => ((d.meet m).value.run moments).value.phase? u
    let ss := stimuli u moments
    (phase moments = some .closed ↔ Stimulus.Ends ss) ∧
    (phase moments = some .connected ↔ ¬ Stimulus.Ends ss ∧ Stimulus.Settles ss) ∧
    (phase moments = some .created ↔
      ¬ Stimulus.Ends ss ∧ ¬ Stimulus.Settles ss ∧ ¬ Stimulus.Starts ss) ∧
    (phase moments = some .signaling ↔
      ¬ Stimulus.Ends ss ∧ ¬ Stimulus.Settles ss ∧ Stimulus.Starts ss) ∧
    ∀ before after, moments = before ++ after →
      (phase before = some .closed → phase moments = some .closed) ∧
      (phase moments = some .created → phase before = some .created) := by
  intro phase ss
  have hnone : d.mesh.lines.get? u = none :=
    Option.not_isSome_iff_eq_none.1 (Bool.eq_false_iff.1 hbefore)
  have hstart : (d.meet m).value.phase? u = some .created := by
    refine ((d.upTo m).phase?_apply_of_none hnone m.change).resolve_left fun h => ?_
    obtain ⟨l, hl⟩ := Mesh.contains_eq_true_iff.1 hcreated
    exact Option.some_ne_none l (hl.symm.trans (Option.map_eq_none_iff.1 h))
  have hphase {ms : List Mesh.Moment} (hms : ∀ m' ∈ ms, m'.change.closes u = false) (p : Phase) :
      phase ms = some p ↔ Phase.ofStimuli (stimuli u ms) = p := by
    rw [show phase ms = some (Phase.ofStimuli (stimuli u ms)) from phase?_run _ hstart hms,
      Option.some_inj]
  refine ⟨(hphase hmoments _).trans (Phase.ofStimuli_eq_closed_iff ss),
    (hphase hmoments _).trans (Phase.ofStimuli_eq_connected_iff ss), ?_,
    (hphase hmoments _).trans (Phase.ofStimuli_eq_signaling_iff ss), ?_⟩
  · rw [hphase hmoments, Phase.ofStimuli_eq_created_iff]
    exact ⟨fun h => ⟨h.1, fun hs => h.2 hs.starts, h.2⟩, fun h => ⟨h.1, h.2.2⟩⟩
  · rintro before after rfl
    have hprefix : ∀ m' ∈ before, m'.change.closes u = false := fun m' hm' =>
      hmoments m' (List.mem_append_left _ hm')
    have hss : stimuli u (before ++ after) = stimuli u before ++ stimuli u after :=
      List.filterMap_append
    rw [hphase hmoments, hphase hmoments, hphase hprefix, hphase hprefix,
      Phase.ofStimuli_eq_closed_iff, Phase.ofStimuli_eq_closed_iff,
      Phase.ofStimuli_eq_created_iff, Phase.ofStimuli_eq_created_iff, hss,
      Stimulus.ends_append_iff, Stimulus.starts_append_iff, not_or, not_or]
    exact ⟨.inl, fun h => ⟨h.1.1, h.2.1⟩⟩

/-- A connection is connected after it negotiated, and gets an envelope then; meanwhile another one
fails. -/
theorem phase_run_connected :
    let create (name : String) : Mesh.Moment := ⟨0, .none, .create ⟨name⟩ true []⟩
    let report (name : String) (r : Report) : Mesh.Moment := ⟨0, .none, .report ⟨name⟩ r⟩
    let d := ((fresh []).meet (create "bob")).value
    let moments := [report "ann" .renegotiating, report "ann" .connected,
      report "bob" (.failed .destroyed), ⟨0, .none, .signal ⟨"ann"⟩ ⟨.null⟩⟩]
    d.mesh.contains ⟨"ann"⟩ = false ∧ (d.meet (create "ann")).value.mesh.contains ⟨"ann"⟩ = true ∧
      (∀ m ∈ moments, m.change.closes ⟨"ann"⟩ = false) ∧
      ((d.meet (create "ann")).value.run moments).value.phase? ⟨"ann"⟩ = some .connected := by
  intro create report d moments
  have hbefore : d.mesh.contains ⟨"ann"⟩ = false := by decide
  have hcreated : (d.meet (create "ann")).value.mesh.contains ⟨"ann"⟩ = true := by decide
  have hmoments : ∀ m ∈ moments, m.change.closes ⟨"ann"⟩ = false := by
    simp [moments, report, Mesh.Change.closes]
  have hstimuli : stimuli ⟨"ann"⟩ moments =
      [.report .renegotiating, .report .connected, .envelope] := rfl
  obtain ⟨-, hconnected, -⟩ :=
    phase_run d ⟨"ann"⟩ (create "ann") moments hbefore hcreated hmoments
  refine ⟨hbefore, hcreated, hmoments, hconnected.2 ⟨?_, [.report .renegotiating], [.envelope],
    hstimuli, by simp, by simp⟩⟩
  simp [hstimuli, Stimulus.Ends]

end Exchange

end VideoCall.Peer

import VideoCall.Proofs.Call.Accounts
import VideoCall.Proofs.Call.Scope
import VideoCall.Proofs.Call.Wiring

/-!
# One recording session after the other

Every session has a connection of its own to the recording service, but a report of such a
connection does not say which one it came from: the call takes it for one of the session that there
is. If a report still waits when its session is stopped and the next one has begun, an envelope of
the older connection becomes the offer of the newer session, and the last word of the older
connection ends the newer session. The service's replies carry the number of their session and are
not taken for those of another.

What follows says exactly which reports keep sessions apart.

## Main definitions

* `Effect.lineOf` : the connection that was opened for a session.
* `Call.Apart` : a session gets its offer, and ends, by reports of its own connection.
* `Recorder.Session.Ignores` : a report does nothing to a session.

## Main results

* `Call.apart_iff_ignores` : sessions stay apart exactly if the session that there is ignores the
  reports of connections that are gone.
* `Call.stale_reports_reach_successor` : stale reports that reach a later session.
-/

namespace VideoCall

open Outcome Peer Wire

/-- The connection that was opened for the session of the given number. Sessions are numbered from
one. -/
def Effect.lineOf (es : List Effect) (session : Nat) : Option Nat :=
  (recordingLines es)[session - 1]?

/-- A report does nothing to a session: the connection goes on, and an envelope comes too late to be
the offer. -/
def Recorder.Session.Ignores (s : Recorder.Session) : Report → Prop
  | .signal _ => s.offered = true
  | .failed _ => False
  | .closed => False
  | _ => True

namespace Call

/-- At a moment that comes after the given effects, sessions stay apart. The recording service is
asked to join a session only with an envelope of the connection that was opened for it, and a report
ends no session but that of the connection it came from. -/
structure Apart (c : Call) (es : List Effect) (m : Moment) : Prop where
  offer : ∀ session request, (session, request) ∈ Effect.joins (c.meet m).effects →
    ∃ n, Effect.lineOf es session = some n ∧
      m.input = .report n .recording (.signal request.offer)
  ending : ∀ s n r, c.recorder.session = some s → m.input = .report n .recording r →
    (c.meet m).value.recorder.active = false → Effect.lineOf es s.number = some n

/-! ### Reports of the connection to the recording service -/

section Report

variable {c : Call} {s : Recorder.Session}

/-- A report that does nothing to the recorder does nothing to the call. -/
theorem onRecordingReport_of_report_eq_pure {r : Report}
    (h : c.recorder.report r = pure c.recorder) : c.onRecordingReport r = pure c := by
  unfold onRecordingReport
  rw [h]
  change (when (c.recorder.active && !c.recorder.active) _ >>= fun _ => pure c) = _
  rw [Bool.and_not_self]
  rfl

theorem onRecordingReport_of_none (h : c.recorder.session = none) (r : Report) :
    c.onRecordingReport r = pure c := by
  refine onRecordingReport_of_report_eq_pure ?_
  unfold Recorder.report Recorder.offer Recorder.stop
  rw [h]
  cases r <;> rfl

theorem onRecordingReport_of_ignores (h : c.recorder.session = some s) {r : Report}
    (hr : s.Ignores r) : c.onRecordingReport r = pure c := by
  refine onRecordingReport_of_report_eq_pure ?_
  cases r with
  | signal sig =>
    unfold Recorder.report Recorder.offer
    rw [h]
    exact if_pos hr
  | failed e => exact hr.elim
  | closed => exact hr.elim
  | _ => rfl

/-- The first envelope is the offer. -/
theorem joins_onRecordingReport (h : c.recorder.session = some s) (hs : s.offered = false)
    (sig : Signal) : Effect.joins (c.onRecordingReport (.signal sig)).effects =
      [(s.number, ⟨s.base, s.room, s.user, sig⟩)] := by
  unfold onRecordingReport Recorder.report Recorder.offer Recorder.active
  rw [h]
  dsimp only
  rw [hs]
  rfl

/-- The service is asked to join the session that there is, with the envelope that came. -/
theorem of_mem_joins_onRecordingReport (h : c.recorder.session = some s) {r : Report} {n : Nat}
    {request : Recorder.JoinRequest}
    (hn : (n, request) ∈ Effect.joins (c.onRecordingReport r).effects) :
    n = s.number ∧ r = .signal request.offer := by
  have hquiet : Effect.Part.join ∉ Effect.Part.ofRecordingReport r → False := fun hr =>
    List.not_mem_nil (Effect.joins_eq_nil (c.within_onRecordingReport r) hr ▸ hn)
  cases r with
  | signal sig =>
    by_cases hs : s.offered = true
    · rw [onRecordingReport_of_ignores h (r := .signal sig) hs] at hn
      exact absurd hn List.not_mem_nil
    · rw [joins_onRecordingReport h (Bool.eq_false_iff.2 hs)] at hn
      obtain ⟨rfl, rfl⟩ := Prod.mk.inj (List.mem_singleton.1 hn)
      exact ⟨rfl, rfl⟩
  | failed e => exact (hquiet (by simp [Effect.Part.ofRecordingReport, Effect.Part.recorded])).elim
  | closed => exact (hquiet (by simp [Effect.Part.ofRecordingReport, Effect.Part.recorded])).elim
  | _ => exact (hquiet List.not_mem_nil).elim

/-- The end of the connection is that of the session. -/
theorem active_onRecordingReport (h : c.recorder.session = some s) {r : Report}
    (hr : c.recorder.report r = (·.1) <$> c.recorder.stop) :
    (c.onRecordingReport r).value.recorder.active = false := by
  unfold onRecordingReport Recorder.active
  rw [hr]
  unfold Recorder.stop
  rw [h]
  rfl

/-- What the media stack refuses next is no part of what such a report leads to. -/
theorem exists_meet_eq_onRecordingReport (c : Call) {m : Moment} {n : Nat} {r : Report}
    (hm : m.input = .report n .recording r) :
    ∃ c' : Call, c'.recorder = c.recorder ∧ c.meet m = c'.onRecordingReport r := by
  refine ⟨{ c with board := { c.board with refusals := m.refusals } }, rfl, ?_⟩
  unfold meet react
  rw [hm]
  rfl

theorem apart_of_none {es : List Effect} {m : Moment} {n : Nat} {r : Report}
    (hm : m.input = .report n .recording r) (h : c.recorder.session = none) : Apart c es m := by
  obtain ⟨c', hc', hmeet⟩ := c.exists_meet_eq_onRecordingReport hm
  constructor
  · intro session request hjoin
    rw [hmeet, onRecordingReport_of_none (hc' ▸ h)] at hjoin
    exact absurd hjoin List.not_mem_nil
  · exact fun s _ _ hs => nomatch h.symm.trans hs

/-- A report keeps sessions apart exactly if it came from the connection of the session, or if the
session ignores it. -/
theorem apart_iff_of_report {es : List Effect} {m : Moment} {n : Nat} {r : Report}
    (hm : m.input = .report n .recording r) (h : c.recorder.session = some s)
    (hline : Effect.lineOf es s.number = some s.line) :
    Apart c es m ↔ (n ≠ s.line → s.Ignores r) := by
  obtain ⟨c', hc', hmeet⟩ := c.exists_meet_eq_onRecordingReport hm
  have h' : c'.recorder.session = some s := hc' ▸ h
  constructor
  · intro hapart hn
    have hother : Effect.lineOf es s.number ≠ some n := fun hown =>
      hn (Option.some.inj (hown.symm.trans hline))
    have hend : c'.recorder.report r ≠ (·.1) <$> c'.recorder.stop := fun hstop =>
      hother (hapart.ending s n r h hm (hmeet ▸ active_onRecordingReport h' hstop))
    cases r with
    | signal sig =>
      change s.offered = true
      by_contra hs
      have hjoins := joins_onRecordingReport h' (Bool.eq_false_iff.2 hs) sig
      obtain ⟨k, hk, hinput⟩ := hapart.offer s.number ⟨s.base, s.room, s.user, sig⟩
        (hmeet ▸ hjoins ▸ List.mem_singleton_self _)
      obtain rfl : n = k := (Input.report.inj (hm.symm.trans hinput)).1
      exact hother hk
    | failed e => exact (hend rfl).elim
    | closed => exact (hend rfl).elim
    | _ => trivial
  · intro himp
    constructor
    · intro session request hjoin
      rw [hmeet] at hjoin
      obtain ⟨rfl, rfl⟩ := of_mem_joins_onRecordingReport h' hjoin
      by_cases hn : n = s.line
      · exact ⟨n, hn ▸ hline, hm⟩
      · rw [onRecordingReport_of_ignores h' (himp hn)] at hjoin
        exact absurd hjoin List.not_mem_nil
    · intro s' n' r' hs' hinput hactive
      obtain rfl := Option.some.inj (h.symm.trans hs')
      obtain ⟨rfl, -, rfl⟩ := Input.report.inj (hm.symm.trans hinput)
      by_cases hn : n = s.line
      · exact hn ▸ hline
      · rw [hmeet, onRecordingReport_of_ignores h' (himp hn)] at hactive
        change c'.recorder.session.isSome = false at hactive
        rw [h'] at hactive
        cases hactive

end Report

/-! ### All inputs -/

/-- Only reports of the connection to the recording service matter. -/
theorem apart_of_ne_report (c : Call) (es : List Effect) {m : Moment}
    (hm : ∀ n r, m.input ≠ .report n .recording r) : Apart c es m := by
  have hparts : Effect.Part.join ∉ m.input.parts := fun h => by
    obtain ⟨n, sig, hinput⟩ := Input.of_join_mem_parts h
    exact hm n _ hinput
  constructor
  · intro session request hjoin
    rw [Effect.joins_eq_nil (c.within_meet m) hparts] at hjoin
    exact absurd hjoin List.not_mem_nil
  · exact fun s n r _ hinput => absurd hinput (hm n r)

/-- The session that there is has the connection that was opened for it. -/
theorem Numbered.lineOf {c : Call} {es : List Effect} (h : Numbered c es) {s : Recorder.Session}
    (hs : c.recorder.session = some s) : Effect.lineOf es s.number = some s.line := by
  obtain ⟨hnumber, hline⟩ := h.latest s hs
  unfold Effect.lineOf
  rw [hnumber, ← h.count, ← List.getLast?_eq_getElem?]
  exact hline

/-- A connection to the recording service that was destroyed is not the one of the session, and all
others are. -/
theorem mem_destroyed_iff_ne_line {c : Call} {es : List Effect} (hw : Wired c es)
    (ha : Accounted c es) {s : Recorder.Session} (hs : c.recorder.session = some s) {n : Nat}
    (hn : (n, .recording) ∈ Effect.opened es) : n ∈ Effect.destroyed es ↔ n ≠ s.line := by
  have hline : c.wiring.session = some s.line := by simp [wiring, hs]
  constructor
  · rintro hgone rfl
    exact hw.session_alive _ hline hgone
  · intro hne
    refine (ha.mem_or_mem hn).resolve_right fun hheld => ?_
    rcases mem_held_iff.1 hheld with ⟨u, l, hl, rfl⟩ | ⟨s', hs', rfl⟩
    · -- the connection of a participant leads to no one else
      have hopened := hw.line_opened u l.number (by simp [wiring, hl])
      cases hw.unique _ _ _ hn hopened
    · exact hne (congrArg Recorder.Session.line (Option.some.inj (hs'.symm.trans hs)))

/-- In every history the session that there is has the connection that was opened for it. The next
moment keeps sessions apart exactly if that session ignores what is reported of a connection that
was destroyed. -/
theorem apart_iff_ignores (s : Settings) (room : RoomId) (user : UserId) (urls : Media.UrlSource)
    (moments : List Moment) (m : Moment)
    (hopened : ∀ n r, m.input = .report n .recording r → (n, .recording) ∈ Effect.opened
      ((fresh s room user urls .none).run moments).effects) :
    let c := ((fresh s room user urls .none).run moments).value
    let es := ((fresh s room user urls .none).run moments).effects
    (∀ s, c.recorder.session = some s →
      Effect.lineOf es s.number = some s.line ∧ s.line ∉ Effect.destroyed es) ∧
    (Apart c es m ↔ ∀ s n r, c.recorder.session = some s → m.input = .report n .recording r →
      n ∈ Effect.destroyed es → s.Ignores r) := by
  intro c es
  have hnumbered : Numbered c es := numbered_run s room user urls moments
  have hwired : Wired c es := wired_run s room user urls moments
  have haccounted : Accounted c es := accounted_run s room user urls moments
  have halive : ∀ s, c.recorder.session = some s → s.line ∉ Effect.destroyed es :=
    fun s hs => hwired.session_alive _ (by simp [wiring, hs])
  refine ⟨fun s hs => ⟨hnumbered.lineOf hs, halive s hs⟩, ?_⟩
  by_cases hreport : ∃ n r, m.input = .report n .recording r
  · obtain ⟨n, r, hm⟩ := hreport
    cases hs : c.recorder.session with
    | none => exact iff_of_true (apart_of_none hm hs) fun _ _ _ h => by cases h
    | some s =>
      rw [apart_iff_of_report hm hs (hnumbered.lineOf hs),
        ← mem_destroyed_iff_ne_line hwired haccounted hs (hopened n r hm)]
      constructor
      · intro h s' n' r' hs' hm' hgone
        obtain rfl := Option.some.inj hs'
        obtain ⟨rfl, -, rfl⟩ := Input.report.inj (hm.symm.trans hm')
        exact h hgone
      · exact fun h hgone => h s n r rfl hm hgone
  · exact iff_of_true (apart_of_ne_report c es fun n r hm => hreport ⟨n, r, hm⟩)
      fun s n r _ hm => absurd ⟨n, r, hm⟩ hreport

/-- A recording is stopped, and another one begins. -/
def rerecording : List Moment :=
  let outcome (recording : Bool) : Input := .relay (.message (.recordOutcome ⟨true, recording, ""⟩))
  [⟨0, .none, outcome true⟩, ⟨1, .none, outcome false⟩, ⟨2, .none, outcome true⟩]

/-- Once the other recording has its offer, an envelope of the first connection does no harm. -/
theorem late_envelope_apart :
    let o := (fresh (.ofRelay "ws://relay") ⟨"room"⟩ ⟨"me"⟩ (.fresh fun _ _ => false) .none).run
      (rerecording ++ [⟨3, .none, .report 1 .recording (.signal ⟨.string "new"⟩)⟩])
    Apart o.value o.effects ⟨4, .none, .report 0 .recording (.signal ⟨.string "old"⟩)⟩ :=
  (apart_iff_ignores _ _ _ _ _ _ fun n r hm => by
      obtain ⟨rfl, -, rfl⟩ := Input.report.inj hm
      decide).2.2 fun s n r hs hm _ => by
    obtain ⟨rfl, -, rfl⟩ := Input.report.inj hm
    obtain rfl := Option.some.inj hs
    rfl

/-- Before that, it becomes the offer of the other recording, and the word that the first connection
is closed ends the other recording. -/
theorem stale_reports_reach_successor :
    let o := (fresh (.ofRelay "ws://relay") ⟨"room"⟩ ⟨"me"⟩ (.fresh fun _ _ => false) .none).run
      rerecording
    let envelope : Moment := ⟨3, .none, .report 0 .recording (.signal ⟨.string "old"⟩)⟩
    let close : Moment := ⟨3, .none, .report 0 .recording .closed⟩
    Effect.lineOf o.effects 1 = some 0 ∧ Effect.lineOf o.effects 2 = some 1 ∧
      0 ∈ Effect.destroyed o.effects ∧
      Effect.joins (o.value.meet envelope).effects =
        [(2, ⟨"http://localhost:3000", ⟨"room"⟩, ⟨"me"⟩, ⟨.string "old"⟩⟩)] ∧
      Effect.destroyed (o.value.meet close).effects = [1] ∧
      ¬ Apart o.value o.effects envelope ∧ ¬ Apart o.value o.effects close := by
  intro o envelope close
  have hjoins : Effect.joins (o.value.meet envelope).effects =
      [(2, ⟨"http://localhost:3000", ⟨"room"⟩, ⟨"me"⟩, ⟨.string "old"⟩⟩)] := rfl
  have hline : Effect.lineOf o.effects 2 = some 1 := by decide
  refine ⟨by decide, hline, by decide, hjoins, by decide, fun h => ?_, fun h => ?_⟩
  · obtain ⟨n, hn, hinput⟩ := h.offer 2 _ (hjoins ▸ List.mem_singleton_self _)
    obtain rfl : 0 = n := (Input.report.inj hinput).1
    cases hline.symm.trans hn
  · cases hline.symm.trans (h.ending _ 0 .closed rfl rfl (by decide))

end Call

end VideoCall

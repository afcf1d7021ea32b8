import Mathlib.Data.List.Nodup
import VideoCall.Proofs.Call.Reactions

/-!
# The books on connections

Connections are numbered as they are opened. At any time each of them is in exactly one place: the
call holds on to it, or it was destroyed, once. Those to the recording service belong to sessions,
one to each, in the same order.

## Main definitions

* `Call.Accounted` : every connection is in one place.
* `Call.Numbered` : every session has its connection.

## Main results

* `Call.accounted_run` : the books on connections are kept in every history.
* `Call.numbered_run` : so are those on sessions.
-/

namespace VideoCall.Call

open Outcome Peer

variable {c c' : Call} {es fs : List Effect} {o : Outcome Call}

/-! ### Connections -/

/-- What a call holds on to but for one participant's connection. -/
theorem held_of_get? {user : UserId} {l : Line} (hl : c.mesh.lines.get? user = some l) :
    c.held.Perm (l.number :: held { c with mesh := ⟨c.mesh.lines.erase user⟩ }) :=
  ((Table.values_perm_of_get? hl).map Line.number).append_right _

theorem held_insert (c : Call) (user : UserId) (l : Line) :
    (held { c with mesh := ⟨c.mesh.lines.insert user l⟩ }).Perm
      (l.number :: held { c with mesh := ⟨c.mesh.lines.erase user⟩ }) :=
  ((Table.values_insert_perm c.mesh.lines user l).map Line.number).append_right _

theorem Resembles.held_eq (h : Resembles c c') : c'.held = c.held := by
  unfold held
  rw [h.mesh, h.line]

/-- Every connection is in one place. -/
structure Accounted (c : Call) (es : List Effect) : Prop where
  /-- Connections are numbered as they are opened. -/
  opened : (Effect.opened es).map Prod.fst = List.range c.board.opened
  /-- Each was destroyed, or the call holds on to it. -/
  settled : (Effect.destroyed es ++ c.held).Perm (List.range c.board.opened)

namespace Accounted

/-- The next connections are opened. Of these and those that there were, some are destroyed and the
others held on to. -/
theorem append (h : Accounted c es) (os : List (Nat × Key)) (ds : List Nat)
    (ho : Effect.opened fs = os) (hd : Effect.destroyed fs = ds)
    (hos : os.map Prod.fst = List.range' c.board.opened os.length)
    (hb : c'.board.opened = c.board.opened + os.length)
    (hheld : (ds ++ c'.held).Perm (c.held ++ os.map Prod.fst)) : Accounted c' (es ++ fs) := by
  have hrange : List.range c.board.opened ++ os.map Prod.fst = List.range c'.board.opened := by
    have happend : List.range' 0 c.board.opened ++
        List.range' (0 + c.board.opened) os.length =
        List.range' 0 (c.board.opened + os.length) := List.range'_append_1
    rwa [Nat.zero_add, ← List.range_eq_range', ← List.range_eq_range', ← hb, ← hos] at happend
  constructor
  · rw [Effect.opened_append, List.map_append, h.opened, ho, hrange]
  · rw [Effect.destroyed_append, hd, ← hrange, List.append_assoc]
    refine (hheld.append_left _).trans ?_
    rw [← List.append_assoc]
    exact h.settled.append_right _

/-- Nothing is opened or destroyed. -/
theorem quiet (h : Accounted c es) (ho : Effect.opened fs = []) (hd : Effect.destroyed fs = [])
    (hb : c'.board.opened = c.board.opened) (hheld : c'.held.Perm c.held) :
    Accounted c' (es ++ fs) :=
  h.append [] [] ho hd rfl hb (by rwa [List.map_nil, List.append_nil])

/-- Some connections are destroyed, and none is opened. -/
theorem destroy (h : Accounted c es) (ds : List Nat) (ho : Effect.opened fs = [])
    (hd : Effect.destroyed fs = ds) (hb : c'.board.opened = c.board.opened)
    (hheld : (ds ++ c'.held).Perm c.held) : Accounted c' (es ++ fs) :=
  h.append [] ds ho hd rfl hb (by rwa [List.map_nil, List.append_nil])

end Accounted

/-- Every move keeps the books on connections. -/
theorem leads_accounted (h : Move c o) : Leads (Accounted c) o Accounted := by
  intro es hes
  cases h with
  | pass h hfs =>
    obtain ⟨ho, hd⟩ := Effect.dealings_of_asides hfs
    exact hes.quiet ho hd h.opened (.of_eq h.held_eq)
  | @connect user initiator _ b _ hnew hb =>
    refine hes.append [(c.board.opened, .participant user)] [] rfl rfl rfl hb ?_
    have hinsert :=
      held_insert { c with board := b } user ⟨c.board.opened, .created, initiator⟩
    rw [Table.erase_of_get?_eq_none hnew] at hinsert
    exact hinsert.trans (List.perm_append_singleton c.board.opened c.held).symm
  | phase hl _ hfs =>
    obtain ⟨ho, hd⟩ := Effect.dealings_of_asides hfs
    exact hes.quiet ho hd rfl ((held_insert c _ _).trans (held_of_get? hl).symm)
  | @tearDown _ l _ hl hfs _ =>
    obtain ⟨ho, hd⟩ := Effect.dealings_of_gallery hfs
    exact hes.destroy [l.number] ((Effect.opened_publish _ _).trans ho)
      ((Effect.destroyed_publish _ _).trans (congrArg _ hd)) rfl (held_of_get? hl).symm
  | change _ h _ hfs _ =>
    obtain ⟨ho, hd⟩ := Effect.dealings_of_gallery hfs
    exact hes.quiet ((Effect.opened_publish _ _).trans ho) ((Effect.destroyed_publish _ _).trans hd)
      h.opened (.of_eq h.held_eq)
  | @record s r b _ _ hnone hr hs _ hb hfs =>
    obtain ⟨ho, hd⟩ := Effect.dealings_of_asides hfs
    refine hes.append [(c.board.opened, .recording)] []
      ((Effect.opened_publish _ _).trans (congrArg _ ho))
      ((Effect.destroyed_publish _ _).trans hd) rfl hb (.of_eq ?_)
    have hline : s.line = c.board.opened := congrArg Prod.snd hs
    simp [held, hnone, hr, hline]
  | @stop s r _ hs hr _ hfs =>
    obtain ⟨ho, hd⟩ := Effect.dealings_of_asides hfs
    refine hes.destroy [s.line] ((Effect.opened_publish _ _).trans ho)
      ((Effect.destroyed_publish _ _).trans (congrArg _ hd)) rfl ?_
    simpa [held, hs, hr] using
      (List.perm_append_singleton s.line (c.mesh.lines.values.map Line.number)).symm
  | @release c' _ _ hb hm hr _ _ ho hd _ _ =>
    have hnone : c'.held = [] := by
      rw [held, hm, hr]
      rfl
    refine hes.destroy c.held ((Effect.opened_publish _ _).trans ho)
      ((Effect.destroyed_publish _ _).trans hd) hb (.of_eq ?_)
    rw [hnone, List.append_nil]

/-- Every connection is in one place in every history. -/
theorem accounted_run (s : Settings) (room : RoomId) (user : UserId) (urls : Media.UrlSource)
    (moments : List Moment) :
    Accounted ((fresh s room user urls .none).run moments).value
      ((fresh s room user urls .none).run moments).effects :=
  (moves_run _ moments).leads (fun _ _ => leads_accounted) [] ⟨rfl, .nil⟩

namespace Accounted

/-- Every connection that was opened is held on to, or it was destroyed. -/
theorem mem_or_mem (h : Accounted c es) {n : Nat} {key : Key} (hn : (n, key) ∈ Effect.opened es) :
    n ∈ Effect.destroyed es ∨ n ∈ c.held := by
  have hmem : n ∈ List.range c.board.opened := h.opened ▸ List.mem_map_of_mem hn
  exact List.mem_append.1 (h.settled.mem_iff.2 hmem)

end Accounted

/-- When a call holds on to nothing, every connection that was opened was destroyed, once. -/
theorem Accounted.count_destroyed (h : Accounted c es) (hheld : c.held = []) {n : Nat} {key : Key}
    (hn : (n, key) ∈ Effect.opened es) : (Effect.destroyed es).count n = 1 := by
  have hsettled := h.settled
  rw [hheld, List.append_nil, ← h.opened] at hsettled
  have hnodup : ((Effect.opened es).map Prod.fst).Nodup := h.opened ▸ List.nodup_range
  rw [hsettled.count_eq]
  exact List.count_eq_one_of_mem hnodup (List.mem_map_of_mem hn)

/-! ### Sessions -/

/-- Every session has its connection. -/
structure Numbered (c : Call) (es : List Effect) : Prop where
  /-- As many sessions began as connections to the recording service were opened. -/
  count : (Effect.recordingLines es).length = c.recorder.started
  /-- The session that there is began last. -/
  latest : ∀ s, c.recorder.session = some s →
    s.number = c.recorder.started ∧ (Effect.recordingLines es).getLast? = some s.line

namespace Numbered

/-- No connection to the recording service is opened, and no session begins. -/
theorem stay (h : Numbered c es) (ho : Effect.recordingLines fs = [])
    (hstarted : c'.recorder.started = c.recorder.started)
    (hsession : c'.recorder.session = none ∨
      c'.recorder.session.map Recorder.Session.numbers =
        c.recorder.session.map Recorder.Session.numbers) : Numbered c' (es ++ fs) := by
  have hlines : Effect.recordingLines (es ++ fs) = Effect.recordingLines es := by
    rw [Effect.recordingLines_append, ho, List.append_nil]
  constructor
  · rw [hlines, hstarted]
    exact h.count
  · intro s' hs'
    rcases hsession with hnone | hsame
    · cases hnone.symm.trans hs'
    · rw [hs', Option.map_some] at hsame
      obtain ⟨s, hs, hnumbers⟩ := Option.map_eq_some_iff.1 hsame.symm
      have hnumber : s.number = s'.number := congrArg Prod.fst hnumbers
      have hline : s.line = s'.line := congrArg Prod.snd hnumbers
      rw [hlines, hstarted, ← hnumber, ← hline]
      exact h.latest s hs

end Numbered

/-- Every move keeps the books on sessions. -/
theorem leads_numbered (h : Move c o) : Leads (Numbered c) o Numbered := by
  intro es hes
  have hquiet : ∀ {fs : List Effect}, Effect.opened fs = [] → Effect.recordingLines fs = [] := by
    intro fs hfs
    rw [Effect.recordingLines, hfs]
    rfl
  cases h with
  | pass h hfs =>
    exact hes.stay (hquiet (Effect.dealings_of_asides hfs).1) h.started (Or.inr h.session)
  | connect _ _ _ => exact hes.stay rfl rfl (Or.inr rfl)
  | phase _ _ hfs => exact hes.stay (hquiet (Effect.dealings_of_asides hfs).1) rfl (Or.inr rfl)
  | tearDown _ hfs _ =>
    have ho := (Effect.dealings_of_gallery hfs).1
    exact hes.stay (hquiet ((Effect.opened_publish _ _).trans ho)) rfl (Or.inr rfl)
  | change _ h _ hfs _ =>
    have ho := (Effect.dealings_of_gallery hfs).1
    exact hes.stay (hquiet ((Effect.opened_publish _ _).trans ho)) h.started (Or.inr h.session)
  | @record s r b options fs hnone hr hs hstarted hb hfs =>
    have ho := (Effect.dealings_of_asides hfs).1
    have hlines : Effect.recordingLines (.line (.opened c.board.opened .recording options) :: fs ++
        [.published (.recording true)]) = [c.board.opened] := by
      unfold Effect.recordingLines
      rw [Effect.opened_publish]
      change c.board.opened :: Effect.recordingLines fs = _
      rw [hquiet ho]
    constructor
    · rw [Effect.recordingLines_append, hlines, List.length_append, hes.count]
      exact hstarted.symm
    · intro s' hs'
      obtain rfl := Option.some.inj (hr.symm.trans hs')
      obtain ⟨hnumber, hline⟩ := Prod.mk.inj hs
      rw [Effect.recordingLines_append, hlines, List.getLast?_concat]
      exact ⟨hnumber.trans hstarted.symm, congrArg some hline.symm⟩
  | stop _ hr hstarted hfs =>
    have ho := (Effect.dealings_of_asides hfs).1
    exact hes.stay (hquiet ((Effect.opened_publish _ _).trans ho)) hstarted (Or.inl hr)
  | release _ _ _ hr hstarted _ ho _ _ _ =>
    exact hes.stay (hquiet ((Effect.opened_publish _ _).trans ho)) hstarted (Or.inl hr)

/-- Every session has its connection in every history. -/
theorem numbered_run (s : Settings) (room : RoomId) (user : UserId) (urls : Media.UrlSource)
    (moments : List Moment) :
    Numbered ((fresh s room user urls .none).run moments).value
      ((fresh s room user urls .none).run moments).effects :=
  (moves_run _ moments).leads (fun _ _ => leads_numbered) [] ⟨rfl, fun _ hs => nomatch hs⟩

end VideoCall.Call

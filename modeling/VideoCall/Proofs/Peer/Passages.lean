import VideoCall.Peer.History
import VideoCall.Proofs.Metric
import VideoCall.Proofs.Outcome
import VideoCall.Proofs.Peer.Mesh

/-!
# Connections that come and go

To each participant the connections of a mesh come and go in turn: the next one comes when the one
before is gone, and the participant is in the mesh exactly while one is there. With a connection
that is gone there are no more dealings. The counters agree: those that came are those that were
closed together with those that are there.

## Main definitions

* `Effect.passages` : the comings and goings of the connections to a participant.
* `Effect.Final` : nothing happens to a connection after its end.
* `Peer.Exchange.Orderly` : the books on connections are kept.

## Main results

* `Peer.Exchange.leads_meet` : every moment keeps the books.
* `Peer.Exchange.passages_run` : what the books say of every history.
-/

namespace VideoCall

open Media Wire Outcome Peer

/-! ### Comings and goings -/

namespace Peer

/-- A connection comes, or goes. -/
inductive Passage
  | came (line : Nat)
  | went (line : Nat)
  deriving DecidableEq

namespace Passage

/-- Connections come and go in turn: the next one comes when the one before is gone. -/
def turns (ns : List Nat) : List Passage := ns.flatMap fun n => [came n, went n]

@[simp]
theorem turns_append (ns ms : List Nat) : turns (ns ++ ms) = turns ns ++ turns ms :=
  List.flatMap_append

/-- After the turns of some connections the last one is gone. -/
theorem getLast?_turns (ns : List Nat) (n : Nat) : (turns ns).getLast? ≠ some (.came n) := by
  rcases List.eq_nil_or_concat ns with rfl | ⟨ms, k, rfl⟩
  · exact nofun
  · rw [List.concat_eq_append, turns_append]
    change (turns ms ++ ([came k] ++ [went k])).getLast? ≠ _
    rw [← List.append_assoc, List.getLast?_concat]
    exact nofun

end Passage

namespace LineEvent

/-- What a dealing is to a participant, whose connections have the given numbers: one comes, one
goes, or neither. -/
def passage? (u : UserId) (ns : List Nat) : LineEvent → Option Passage
  | .opened n key _ => if key = .participant u then some (.came n) else none
  | .destroyed n => if n ∈ ns then some (.went n) else none
  | _ => none

/-- The connection that a dealing is about. -/
def line? : LineEvent → Option Nat
  | .opened n _ _ => some n
  | .refused _ _ => none
  | .told n _ _ => some n
  | .destroyed n => some n

end LineEvent

end Peer

namespace Effect

/-- The connections that were opened to a participant. -/
def linesTo (u : UserId) (es : List Effect) : List Nat :=
  (opened es).filterMap fun (n, key) => if key = .participant u then some n else none

/-- The comings and goings of the connections to a participant. -/
def passages (u : UserId) (es : List Effect) : List Passage :=
  (lines es).filterMap (LineEvent.passage? u (linesTo u es))

/-- Whatever happens after the end of a connection is about others. -/
def Final (es : List Effect) : Prop :=
  (lines es).Pairwise fun e f => ∀ n, e = .destroyed n → f.line? ≠ some n

variable {u : UserId} {es fs : List Effect} {n : Nat}

theorem mem_linesTo_iff : n ∈ linesTo u es ↔ (n, .participant u) ∈ opened es := by
  unfold linesTo
  rw [List.mem_filterMap]
  constructor
  · rintro ⟨⟨k, key⟩, hk, hn⟩
    dsimp only at hn
    split at hn
    · rename_i hkey
      rwa [← Option.some.inj hn, ← hkey]
    · cases hn
  · exact fun hn => ⟨_, hn, if_pos rfl⟩

theorem mem_opened_of_mem_lines {key : Key} {options : Options}
    (h : .opened n key options ∈ lines es) : (n, key) ∈ opened es :=
  List.mem_filterMap.2 ⟨_, h, rfl⟩

theorem mem_destroyed_iff : n ∈ destroyed es ↔ .destroyed n ∈ lines es := by
  unfold destroyed
  rw [List.mem_filterMap]
  constructor
  · rintro ⟨l, hl, hn⟩
    cases l with
    | destroyed k => exact Option.some.inj hn ▸ hl
    | _ => cases hn
  · exact fun hn => ⟨_, hn, rfl⟩

/-- A connection that came was opened. -/
theorem mem_opened_of_came (h : .came n ∈ passages u es) : (n, .participant u) ∈ opened es := by
  obtain ⟨l, hl, hn⟩ := List.mem_filterMap.1 h
  cases l with
  | opened k key options =>
    rw [LineEvent.passage?] at hn
    split at hn
    · rename_i hkey
      rw [← Passage.came.inj (Option.some.inj hn), ← hkey]
      exact mem_opened_of_mem_lines hl
    · cases hn
  | destroyed k =>
    rw [LineEvent.passage?] at hn
    split at hn <;> cases hn
  | _ => cases hn

/-- Further effects add to the comings and goings. Connections that are opened only now were not
destroyed before. -/
theorem passages_append (u : UserId)
    (h : ∀ n ∈ linesTo u fs, n ∉ destroyed es) :
    passages u (es ++ fs) = passages u es ++
      (lines fs).filterMap (LineEvent.passage? u (linesTo u es ++ linesTo u fs)) := by
  have hlines : linesTo u (es ++ fs) = linesTo u es ++ linesTo u fs := by
    unfold linesTo
    rw [opened_append, List.filterMap_append]
  unfold passages
  rw [hlines, lines_append, List.filterMap_append]
  congr 1
  refine List.filterMap_congr fun l hl => ?_
  cases l with
  | destroyed n =>
    have hn : n ∉ linesTo u fs := fun hn => h n hn (mem_destroyed_iff.2 hl)
    simp only [LineEvent.passage?, List.mem_append, or_iff_left hn]
  | _ => rfl

theorem Final.append (h : Final es) (hf : Final fs)
    (hef : ∀ n ∈ destroyed es, ∀ l ∈ lines fs, l.line? ≠ some n) : Final (es ++ fs) := by
  unfold Final
  rw [lines_append, List.pairwise_append]
  refine ⟨h, hf, fun e he f hf n hn => hef n ?_ f hf⟩
  exact mem_destroyed_iff.2 (hn ▸ he)

end Effect

namespace Peer

/-! ### The books -/

namespace Exchange

/-- The numbers of the connections that are there, in the order of the participants. -/
def held (d : Exchange) : List Nat := d.mesh.lines.values.map Line.number

/-- The connection to a participant that is there. -/
def line? (d : Exchange) (u : UserId) : Option Nat := (d.mesh.lines.get? u).map Line.number

/-- An effect leaves connections where they are: it tells something to one that is there, or has to
do with none. -/
def Quiet (d : Exchange) : Effect → Prop
  | .line (.told n _ _) => n ∈ d.held
  | .line (.refused _ _) => True
  | .line _ => False
  | .measured (.count c) => c ≠ .peersCreated ∧ c.isPeersClosed = false
  | _ => True

/-- The books on connections are kept. -/
structure Orderly (d : Exchange) (es : List Effect) : Prop where
  opened_lt : ∀ n key, (n, key) ∈ Effect.opened es → n < d.board.opened
  /-- No number is given twice. -/
  nodup : ((Effect.opened es).map Prod.fst).Nodup
  participants : ∀ n key, (n, key) ∈ Effect.opened es → ∃ u, key = .participant u
  /-- Each connection was destroyed, or it is there. -/
  settled : (Effect.destroyed es ++ d.held).Perm ((Effect.opened es).map Prod.fst)
  passages : ∀ u, ∃ ns, Effect.passages u es = Passage.turns ns ++ ((d.line? u).map .came).toList
  final : Effect.Final es
  created : (Effect.counts es).count .peersCreated = (Effect.opened es).length
  closed : (Effect.counts es).countP Counter.isPeersClosed = (Effect.destroyed es).length

variable {d d' : Exchange} {es fs : List Effect}

namespace Orderly

variable (h : Orderly d es)
include h

theorem unique {n : Nat} {key key' : Key} (hn : (n, key) ∈ Effect.opened es)
    (hn' : (n, key') ∈ Effect.opened es) : key = key' :=
  congrArg Prod.snd (List.inj_on_of_nodup_map h.nodup hn hn' rfl)

theorem line_opened {u : UserId} {n : Nat} (hn : d.line? u = some n) :
    (n, .participant u) ∈ Effect.opened es := by
  obtain ⟨ns, hns⟩ := h.passages u
  refine Effect.mem_opened_of_came ?_
  rw [hns, hn]
  exact List.mem_append_right _ (List.mem_singleton_self _)

theorem not_mem_destroyed {n : Nat} (hn : n ∈ d.held) : n ∉ Effect.destroyed es := fun hd =>
  (List.nodup_append'.1 (h.settled.nodup_iff.2 h.nodup)).2.2 hd hn

theorem destroyed_lt {n : Nat} (hn : n ∈ Effect.destroyed es) : n < d.board.opened := by
  obtain ⟨⟨k, key⟩, hk, rfl⟩ := List.mem_map.1 (h.settled.subset (List.mem_append_left _ hn))
  exact h.opened_lt k key hk

/-- Connections that are there are told something, and nothing else happens to any. -/
theorem quiet (hline : d'.line? = d.line?) (hheld : d'.held.Perm d.held)
    (hb : d.board.opened ≤ d'.board.opened) (hfs : ∀ e ∈ fs, d.Quiet e) :
    Orderly d' (es ++ fs) := by
  have hlines : ∀ l ∈ Effect.lines fs, (∃ n ∈ d.held, ∃ c accepted, l = .told n c accepted) ∨
      ∃ key options, l = .refused key options := by
    intro l hl
    obtain ⟨e, he, hel⟩ := List.mem_filterMap.1 hl
    have hquiet := hfs e he
    cases e with
    | line l' =>
      obtain rfl : l' = l := Option.some.inj hel
      cases l' with
      | told n c accepted => exact Or.inl ⟨n, hquiet, c, accepted, rfl⟩
      | refused key options => exact Or.inr ⟨key, options, rfl⟩
      | _ => exact hquiet.elim
    | _ => cases hel
  have hcounts : ∀ c ∈ Effect.counts fs, c ≠ .peersCreated ∧ c.isPeersClosed = false := by
    intro c hc
    obtain ⟨e, he, hec⟩ := List.mem_filterMap.1 hc
    have hquiet := hfs e he
    cases e with
    | measured m =>
      cases m with
      | count c' => exact Option.some.inj hec ▸ hquiet
      | set g n => cases hec
    | _ => cases hec
  have hno {β : Type} (view : LineEvent → Option β) (htold : ∀ n c a, view (.told n c a) = none)
      (hrefused : ∀ key o, view (.refused key o) = none) : (Effect.lines fs).filterMap view = [] :=
    List.filterMap_eq_nil_iff.2 fun l hl => by
      rcases hlines l hl with ⟨n, _, c, accepted, rfl⟩ | ⟨key, options, rfl⟩
      · exact htold n c accepted
      · exact hrefused key options
  have ho : Effect.opened fs = [] := hno _ (fun _ _ _ => rfl) fun _ _ => rfl
  have hd : Effect.destroyed fs = [] := hno _ (fun _ _ _ => rfl) fun _ _ => rfl
  have hopened : Effect.opened (es ++ fs) = Effect.opened es := by simp [ho]
  have hdestroyed : Effect.destroyed (es ++ fs) = Effect.destroyed es := by simp [hd]
  have hto (u : UserId) : Effect.linesTo u fs = [] := by simp [Effect.linesTo, ho]
  constructor
  · intro n key hn
    exact Nat.lt_of_lt_of_le (h.opened_lt n key (hopened ▸ hn)) hb
  · exact hopened ▸ h.nodup
  · exact hopened ▸ h.participants
  · rw [hopened, hdestroyed]
    exact (hheld.append_left _).trans h.settled
  · intro u
    obtain ⟨ns, hns⟩ := h.passages u
    refine ⟨ns, ?_⟩
    rw [Effect.passages_append u (by simp [hto]), hno _ (fun _ _ _ => rfl) fun _ _ => rfl, hns,
      hline, List.append_nil]
  · refine h.final.append ?_ fun n hn l hl => ?_
    · refine List.pairwise_of_forall_mem_list fun e he f _ n hn => ?_
      rcases hlines e he with ⟨_, _, _, _, rfl⟩ | ⟨_, _, rfl⟩ <;> cases hn
    · rcases hlines l hl with ⟨k, hk, c, accepted, rfl⟩ | ⟨key, options, rfl⟩
      · exact fun heq => h.not_mem_destroyed hk (Option.some.inj heq ▸ hn)
      · exact nofun
  · have hzero : (Effect.counts fs).count .peersCreated = 0 :=
      List.count_eq_zero.2 fun hmem => (hcounts _ hmem).1 rfl
    rw [Effect.counts_append, List.count_append, hzero, hopened]
    exact h.created
  · have hzero : (Effect.counts fs).countP Counter.isPeersClosed = 0 :=
      List.countP_eq_zero.2 fun c hc => by simp [(hcounts c hc).2]
    rw [Effect.counts_append, List.countP_append, hzero, hdestroyed]
    exact h.closed

/-- The next connection comes, to a participant to whom there is none. -/
theorem came {u : UserId} (hnone : d.line? u = none)
    (hline : d'.line? = fun v => if v = u then some d.board.opened else d.line? v)
    (hheld : d'.held.Perm (d.board.opened :: d.held)) (hb : d'.board.opened = d.board.opened + 1)
    {options : Options}
    (hlines : Effect.lines fs = [.opened d.board.opened (.participant u) options])
    (hcounts : Effect.counts fs = [.peersCreated]) : Orderly d' (es ++ fs) := by
  have ho : Effect.opened fs = [(d.board.opened, .participant u)] := by
    rw [Effect.opened, hlines]
    rfl
  have hd : Effect.destroyed fs = [] := by
    rw [Effect.destroyed, hlines]
    rfl
  have hopened : Effect.opened (es ++ fs) =
      Effect.opened es ++ [(d.board.opened, .participant u)] := by rw [Effect.opened_append, ho]
  have hdestroyed : Effect.destroyed (es ++ fs) = Effect.destroyed es := by simp [hd]
  have hnew {n : Nat} {key : Key} (hn : (n, key) ∈ Effect.opened (es ++ fs)) :
      (n, key) ∈ Effect.opened es ∨ n = d.board.opened ∧ key = .participant u := by
    rw [hopened, List.mem_append, List.mem_singleton] at hn
    exact hn.imp_right Prod.mk.inj
  constructor
  · intro n key hn
    rcases hnew hn with hn | ⟨rfl, -⟩
    · exact hb ▸ Nat.lt_succ_of_lt (h.opened_lt n key hn)
    · exact hb ▸ Nat.lt_succ_self _
  · rw [hopened, List.map_append]
    refine List.nodup_append'.2 ⟨h.nodup, List.nodup_singleton _, ?_⟩
    rw [List.map_singleton, List.disjoint_singleton]
    intro hmem
    obtain ⟨⟨k, key⟩, hk, hnumber⟩ := List.mem_map.1 hmem
    exact Nat.ne_of_lt (h.opened_lt k key hk) hnumber
  · intro n key hn
    rcases hnew hn with hn | ⟨-, rfl⟩
    · exact h.participants n key hn
    · exact ⟨u, rfl⟩
  · rw [hopened, hdestroyed, List.map_append]
    refine (hheld.append_left _).trans (List.perm_middle.trans ?_)
    exact (h.settled.cons _).trans (List.perm_append_singleton _ _).symm
  · intro v
    obtain ⟨ns, hns⟩ := h.passages v
    refine ⟨ns, ?_⟩
    have hnumbers : ∀ n ∈ Effect.linesTo v fs, n ∉ Effect.destroyed es := fun n hn hgone => by
      rw [Effect.mem_linesTo_iff, ho, List.mem_singleton] at hn
      exact Nat.lt_irrefl _ ((Prod.mk.inj hn).1 ▸ h.destroyed_lt hgone)
    rw [Effect.passages_append v hnumbers, hns, hline, hlines]
    by_cases hv : v = u
    · subst hv
      simp [LineEvent.passage?, hnone]
    · simp [LineEvent.passage?, hv, Ne.symm hv]
  · refine h.final.append ?_ fun n hn l hl => ?_
    · unfold Effect.Final
      rw [hlines]
      exact List.pairwise_singleton _ _
    · rw [hlines, List.mem_singleton] at hl
      subst hl
      exact fun heq => Nat.lt_irrefl _ (Option.some.inj heq ▸ h.destroyed_lt hn)
  · rw [Effect.counts_append, hcounts, List.count_append, h.created, hopened, List.length_append]
    rfl
  · rw [Effect.counts_append, hcounts, List.countP_append, hdestroyed, h.closed]
    rfl

/-- The connection to a participant goes. -/
theorem went {u : UserId} {n : Nat} (hn : d.line? u = some n)
    (hline : d'.line? = fun v => if v = u then none else d.line? v)
    (hheld : (n :: d'.held).Perm d.held) (hb : d'.board.opened = d.board.opened)
    (hlines : Effect.lines fs = [.destroyed n]) {reason : CloseReason}
    (hcounts : Effect.counts fs = [.peersClosed reason]) : Orderly d' (es ++ fs) := by
  have ho : Effect.opened fs = [] := by
    rw [Effect.opened, hlines]
    rfl
  have hd : Effect.destroyed fs = [n] := by
    rw [Effect.destroyed, hlines]
    rfl
  have hopened : Effect.opened (es ++ fs) = Effect.opened es := by simp [ho]
  have hdestroyed : Effect.destroyed (es ++ fs) = Effect.destroyed es ++ [n] := by
    rw [Effect.destroyed_append, hd]
  have hto (v : UserId) : Effect.linesTo v fs = [] := by simp [Effect.linesTo, ho]
  have howner (v : UserId) : n ∈ Effect.linesTo v es ↔ v = u := by
    rw [Effect.mem_linesTo_iff]
    constructor
    · exact fun hv => Key.participant.inj (h.unique hv (h.line_opened hn))
    · rintro rfl
      exact h.line_opened hn
  constructor
  · exact fun k key hk => hb ▸ h.opened_lt k key (hopened ▸ hk)
  · exact hopened ▸ h.nodup
  · exact hopened ▸ h.participants
  · rw [hopened, hdestroyed, List.append_assoc]
    exact (hheld.append_left _).trans h.settled
  · intro v
    obtain ⟨ns, hns⟩ := h.passages v
    rw [Effect.passages_append v (by simp [hto]), hns, hline, hlines, hto, List.append_nil]
    by_cases hv : v = u
    · subst hv
      refine ⟨ns ++ [n], ?_⟩
      simp [LineEvent.passage?, Passage.turns, (howner v).2 rfl, hn]
    · refine ⟨ns, ?_⟩
      have hother : n ∉ Effect.linesTo v es := fun hmem => hv ((howner v).1 hmem)
      simp [LineEvent.passage?, hv, hother]
  · refine h.final.append ?_ fun k hk l hl => ?_
    · unfold Effect.Final
      rw [hlines]
      exact List.pairwise_singleton _ _
    · rw [hlines, List.mem_singleton] at hl
      subst hl
      have hheld' : n ∈ d.held := hheld.subset List.mem_cons_self
      exact fun heq => h.not_mem_destroyed hheld' (Option.some.inj heq ▸ hk)
  · rw [Effect.counts_append, hcounts, List.count_append, h.created, hopened]
    rfl
  · rw [Effect.counts_append, hcounts, List.countP_append, hdestroyed, h.closed,
      List.length_append]
    rfl

end Orderly

/-! ### Changes of a mesh -/

section Changes

variable (m : Mesh) (b : Switchboard)

/-- Of a connection only the number counts. -/
private theorem line?_insert {user : UserId} {l : Line} (hl : m.lines.get? user = some l)
    (p : Phase) :
    line? ⟨⟨m.lines.insert user { l with phase := p }⟩, b⟩ = line? ⟨m, b⟩ := by
  funext v
  unfold line?
  rw [Table.get?_insert]
  split
  · rename_i hv
    obtain rfl : v = user := Std.LawfulEqOrd.eq_of_compare hv
    rw [hl]
    rfl
  · rfl

private theorem held_insert {user : UserId} {l : Line} (hl : m.lines.get? user = some l)
    (p : Phase) :
    (held ⟨⟨m.lines.insert user { l with phase := p }⟩, b⟩).Perm (held ⟨m, b⟩) :=
  ((Table.values_insert_perm _ _ _).map Line.number).trans
    ((Table.values_perm_of_get? hl).map Line.number).symm

private theorem mem_held {user : UserId} {l : Line} (hl : m.lines.get? user = some l) :
    l.number ∈ held ⟨m, b⟩ :=
  List.mem_map_of_mem (List.mem_map_of_mem (Table.mem_entries_iff.2 hl))

/-- A connection comes, unless there is one or it is refused. -/
theorem leads_create (user : UserId) (initiator : Bool) (streams : List Stream) :
    Leads (Orderly ⟨m, b⟩) (m.create b user initiator streams)
      fun r => Orderly ⟨r.1, r.2.1⟩ := by
  cases hl : m.lines.get? user with
  | some l =>
    rw [Mesh.create_of_get? b initiator streams hl]
    exact .pure fun _ h => h
  | none =>
    intro es hes
    cases hopening : b.refusals.opening (.participant user) with
    | true =>
      rw [Mesh.create_of_refused initiator streams hl hopening]
      exact hes.quiet rfl (.refl _) (Nat.le_refl _) (List.forall_mem_singleton.2 trivial)
    | false =>
      rw [Mesh.create_of_none initiator streams hl hopening]
      refine hes.came (u := user) (congrArg _ hl) ?_ ?_ rfl rfl rfl
      · funext v
        unfold line?
        rw [Table.get?_insert]
        by_cases hv : v = user <;> simp [hv]
      · refine ((Table.values_insert_perm _ _ _).map Line.number).trans ?_
        rw [Table.erase_of_get?_eq_none hl]
        exact .refl _

/-- An envelope is passed on to a connection that is there, or dropped. -/
theorem leads_signal (user : UserId) (s : Signal) :
    Leads (Orderly ⟨m, b⟩) (m.signal b user s) fun r => Orderly ⟨r.1, b⟩ := by
  intro es hes
  cases hl : m.lines.get? user with
  | none =>
    rw [Mesh.signal_of_none b s hl]
    exact hes.quiet rfl (.refl _) (Nat.le_refl _)
      (List.forall_mem_singleton.2 ⟨Counter.noConfusion, rfl⟩)
  | some l =>
    rw [Mesh.signal_of_get? b s hl]
    exact hes.quiet (line?_insert m b hl _) (held_insert m b hl _) (Nat.le_refl _)
      (List.forall_mem_singleton.2 (mem_held m b hl))

/-- A report changes phases only. -/
theorem leads_report (user : UserId) (r : Report) :
    Leads (Orderly ⟨m, b⟩) (pure ⟨(m.report user r).1, b⟩) Orderly := by
  intro es hes
  cases hl : m.lines.get? user with
  | none =>
    rw [Mesh.report_of_none r hl]
    exact hes.quiet rfl (.refl _) (Nat.le_refl _) (List.forall_mem_nil _)
  | some l =>
    rw [Mesh.report_of_get? r hl]
    exact hes.quiet (line?_insert m b hl _) (held_insert m b hl _) (Nat.le_refl _)
      (List.forall_mem_nil _)

/-- A connection goes, if there is one. -/
theorem leads_close (user : UserId) (reason : CloseReason) :
    Leads (Orderly ⟨m, b⟩) (m.close user reason) fun r => Orderly ⟨r.1, b⟩ := by
  cases hl : m.lines.get? user with
  | none =>
    rw [Mesh.close_of_none reason hl]
    exact .pure fun _ h => h
  | some l =>
    intro es hes
    rw [Mesh.close_of_get? reason hl]
    refine hes.went (u := user) (n := l.number) (congrArg _ hl) ?_ ?_ rfl rfl rfl
    · funext v
      unfold line?
      rw [Table.get?_erase]
      by_cases hv : v = user <;> simp [hv]
    · exact ((Table.values_perm_of_get? hl).map Line.number).symm

/-- All connections go, one after the other. -/
theorem leads_closeAll (reason : CloseReason) :
    Leads (Orderly ⟨m, b⟩) (m.closeAll reason) fun r => Orderly ⟨r.1, b⟩ := by
  refine .bind (q := fun m => Orderly ⟨m, b⟩) ?_ (.pure fun _ h => h)
  exact Leads.forEach (q := fun m => Orderly ⟨m, b⟩) (fun m user =>
    .bind (leads_close m b user reason) (.pure fun _ h => h)) _ _

/-- All connections that are there are told something. -/
theorem leads_tellAll (c : Command) :
    Leads (Orderly ⟨m, b⟩) (m.tellAll b c) fun _ => Orderly ⟨m, b⟩ := by
  intro es hes
  refine hes.quiet rfl (.refl _) (Nat.le_refl _) ?_
  refine Emits.forEach (fun () ⟨user, l⟩ hl => ?_) ()
  have htell : Emits (Quiet ⟨m, b⟩) (b.tell (.participant user) l.number c) :=
    .bind (.emit (mem_held m b (Table.mem_entries_iff.1 hl))) (.pure _)
  exact htell.map fun _ => ()

end Changes

/-! ### Histories -/

theorem leads_apply (d : Exchange) (change : Mesh.Change) :
    Leads (Orderly d) (d.apply change) Orderly := by
  obtain ⟨m, b⟩ := d
  cases change with
  | create user initiator streams =>
    exact (leads_create m b user initiator streams).bind (.pure fun _ h => h)
  | signal user s => exact (leads_signal m b user s).bind (.pure fun _ h => h)
  | report user r => exact leads_report m b user r
  | close user reason => exact (leads_close m b user reason).bind (.pure fun _ h => h)
  | closeAll reason => exact (leads_closeAll m b reason).bind (.pure fun _ h => h)
  | tellAll c => exact (leads_tellAll m b c).bind (.pure fun _ h => h)

/-- Every moment keeps the books. Connections that are opened elsewhere only use up numbers. -/
theorem leads_meet (d : Exchange) (m : Mesh.Moment) : Leads (Orderly d) (d.meet m) Orderly := by
  intro es hes
  have hstart : Orderly (d.upTo m) (es ++ []) :=
    hes.quiet rfl (.refl _) (Nat.le_add_right _ _) (List.forall_mem_nil _)
  rw [List.append_nil] at hstart
  exact leads_apply (d.upTo m) m.change es hstart

theorem orderly_run (iceServers : List IceServer) (moments : List Mesh.Moment) :
    Orderly ((fresh iceServers).run moments).value ((fresh iceServers).run moments).effects :=
  Leads.forEach leads_meet moments (fresh iceServers) [] {
    opened_lt := fun _ _ h => absurd h List.not_mem_nil
    nodup := .nil
    participants := fun _ _ h => absurd h List.not_mem_nil
    settled := .nil
    passages := fun _ => ⟨[], rfl⟩
    final := .nil
    created := rfl
    closed := rfl }

/-- The connections that were created are those that were closed and those that are there. -/
theorem Orderly.count_created {d : Exchange} {es : List Effect} (h : Orderly d es) :
    (Effect.counts es).count .peersCreated =
      (Effect.counts es).countP Counter.isPeersClosed + d.mesh.lines.size := by
  have hlength := h.settled.length_eq
  have hheld : d.held.length = d.mesh.lines.size := by
    unfold held Table.values Table.size
    rw [List.length_map, List.length_map]
  rw [List.length_append, List.length_map, hheld] at hlength
  rw [h.created, h.closed, hlength]

/-- A participant is in the mesh if the last connection that came has not gone. -/
theorem Orderly.contains_iff {d : Exchange} {es : List Effect} (h : Orderly d es) (u : UserId) :
    d.mesh.contains u = true ↔ ∃ n, (Effect.passages u es).getLast? = some (.came n) := by
  obtain ⟨ns, hns⟩ := h.passages u
  rw [Mesh.contains_eq_true_iff, hns]
  unfold line?
  cases hl : d.mesh.lines.get? u with
  | none =>
    rw [Option.map_none, Option.map_none, Option.toList_none, List.append_nil]
    exact iff_of_false nofun fun ⟨n, hn⟩ => Passage.getLast?_turns ns n hn
  | some l => exact iff_of_true ⟨l, rfl⟩ ⟨l.number, List.getLast?_concat⟩

/-- A wish that fails leaves the mesh and all metrics as they are. -/
theorem create_of_error {m : Mesh} {b : Switchboard} {user : UserId} {initiator : Bool}
    {streams : List Stream} {e : Failure}
    (h : (m.create b user initiator streams).value.2.2 = .error e) :
    (m.create b user initiator streams).value = (m, b, .error e) ∧
      ∀ f : Footprint, f.noteAll (m.create b user initiator streams).effects = f := by
  cases hl : m.lines.get? user with
  | some l =>
    rw [Mesh.create_of_get? b initiator streams hl] at h
    cases h
  | none =>
    cases hopening : b.refusals.opening (.participant user) with
    | true =>
      rw [Mesh.create_of_refused initiator streams hl hopening] at h ⊢
      obtain rfl : Switchboard.refusal = e := Except.error.inj h
      exact ⟨rfl, fun _ => rfl⟩
    | false =>
      rw [Mesh.create_of_none initiator streams hl hopening] at h
      cases h

/-- In every history, the connections to a participant come and go in turn, and one is there if the
last one came and has not gone. After its end nothing happens to a connection. The connections that
were created are those that were closed, for whatever reason, and those that are there. From then
on, nothing comes of a wish for a connection that there is, and one that fails leaves the mesh and
all metrics as they are. To close a connection that is there destroys and forgets this one, and to
close all destroys and forgets each of them. -/
theorem passages_run (iceServers : List IceServer) (moments : List Mesh.Moment) :
    let d := ((fresh iceServers).run moments).value
    let es := ((fresh iceServers).run moments).effects
    let readings := (Footprint.none.noteAll es).readings
    (∀ u, ∃ ns, Effect.passages u es = Passage.turns ns ++
      ((d.mesh.lines.get? u).map fun l => .came l.number).toList) ∧
    (∀ u, d.mesh.contains u = true ↔ ∃ n, (Effect.passages u es).getLast? = some (.came n)) ∧
    Effect.Final es ∧
    (∀ n ∈ Effect.destroyed es, ∃ u, (n, .participant u) ∈ Effect.opened es) ∧
    readings.total .peersCreated =
      (CloseReason.all.map fun reason => readings.total (.peersClosed reason)).sum
        + d.mesh.lines.size ∧
    (∀ (b : Switchboard) user initiator streams,
      let o := d.mesh.create b user initiator streams
      (d.mesh.contains user = true → o = pure (d.mesh, b, .ok false)) ∧
      ∀ e, o.value.2.2 = .error e →
        o.value = (d.mesh, b, .error e) ∧ ∀ f : Footprint, f.noteAll o.effects = f) ∧
    ∀ reason,
      (∀ user l, d.mesh.lines.get? user = some l →
        d.mesh.close user reason = ⟨(⟨d.mesh.lines.erase user⟩, true),
          [.line (.destroyed l.number), .measured (.count (.peersClosed reason))]⟩) ∧
      (d.mesh.closeAll reason).value = (.empty, d.mesh.lines.keys) ∧
      Effect.destroyed (d.mesh.closeAll reason).effects =
        d.mesh.lines.values.map Line.number := by
  intro d es readings
  have hbooks : Orderly d es := orderly_run iceServers moments
  refine ⟨fun u => ?_, hbooks.contains_iff, hbooks.final, fun n hn => ?_, ?_,
    fun b user initiator streams => ⟨fun h => ?_, fun e => create_of_error⟩,
    fun reason => ⟨fun _ _ => Mesh.close_of_get? reason, d.mesh.value_closeAll reason,
      d.mesh.destroyed_closeAll reason⟩⟩
  · obtain ⟨ns, hns⟩ := hbooks.passages u
    refine ⟨ns, hns.trans ?_⟩
    unfold line?
    rw [Option.map_map]
    rfl
  · obtain ⟨⟨k, key⟩, hk, rfl⟩ :=
      List.mem_map.1 (hbooks.settled.subset (List.mem_append_left _ hn))
    obtain ⟨u, rfl⟩ := hbooks.participants k key hk
    exact ⟨u, hk⟩
  · have htotal (c : Counter) : readings.total c = (Effect.counts es).count c :=
      (Footprint.none.total_noteAll es c).trans (Nat.zero_add _)
    simp only [htotal]
    rw [Effect.sum_count_peersClosed, hbooks.count_created]
  · obtain ⟨l, hl⟩ := Mesh.contains_eq_true_iff.1 h
    exact Mesh.create_of_get? b initiator streams hl

/-- A connection is wished for twice, goes, and another one comes, while one was opened
elsewhere. -/
example :
    let create : Mesh.Change := .create ⟨"ann"⟩ true []
    let d := (fresh []).run [⟨0, .none, create⟩, ⟨0, .none, create⟩,
      ⟨1, .none, .close ⟨"ann"⟩ .error⟩, ⟨0, .none, create⟩]
    Effect.passages ⟨"ann"⟩ d.effects = [.came 0, .went 0, .came 2] := by
  decide

end Exchange

end Peer

end VideoCall

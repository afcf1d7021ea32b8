import VideoCall.Proofs.Call.Reactions

/-!
# The wiring of a call

Connections are numbered as they are opened, and a number is never given again. A call holds on to
at most one connection to each participant and one to the recording service. Whatever happens, a
connection that a call holds on to was opened for the place it leads to, was not destroyed, and was
opened after all others to the same participant.

## Main definitions

* `Call.Wiring` : the numbers of the connections that a call holds on to.
* `Call.Wiring.Sound` : these connections are open, and the latest ones.

## Main results

* `Call.leads_move` : every move of a call keeps the wiring sound.
* `Call.wired_run` : the wiring is sound in every history.
-/

namespace VideoCall

open Outcome Peer Wire Media

namespace Call

/-- The numbers of the connections that a call holds on to, and how many were opened. -/
structure Wiring where
  lines : UserId → Option Nat
  session : Option Nat
  opened : Nat

/-- The wiring of a call. -/
def wiring (c : Call) : Wiring where
  lines u := (c.mesh.lines.get? u).map Line.number
  session := c.recorder.session.map Recorder.Session.line
  opened := c.board.opened

namespace Wiring

/-- When the given connections were opened and destroyed, those that a call holds on to are open and
lead where they are expected to, and no later one was opened to the same participant. -/
structure Sound (w : Wiring) (os : List (Nat × Key)) (ds : List Nat) : Prop where
  opened_lt : ∀ n key, (n, key) ∈ os → n < w.opened
  unique : ∀ n key key', (n, key) ∈ os → (n, key') ∈ os → key = key'
  destroyed_lt : ∀ n ∈ ds, n < w.opened
  line_opened : ∀ u n, w.lines u = some n → (n, .participant u) ∈ os
  line_alive : ∀ u n, w.lines u = some n → n ∉ ds
  line_newest : ∀ u n, w.lines u = some n → ∀ n', (n', .participant u) ∈ os → n' ≤ n
  session_opened : ∀ n, w.session = some n → (n, .recording) ∈ os
  session_alive : ∀ n, w.session = some n → n ∉ ds

namespace Sound

variable {w : Wiring} {os : List (Nat × Key)} {ds : List Nat}

private theorem mem_append_one {x y : Nat × Key} : x ∈ os ++ [y] ↔ x ∈ os ∨ x = y := by
  rw [List.mem_append, List.mem_singleton]

/-- The next connection is opened to some place. -/
private theorem unique_append (h : w.Sound os ds) (key : Key) (n : Nat) (k k' : Key)
    (hk : (n, k) ∈ os ++ [(w.opened, key)]) (hk' : (n, k') ∈ os ++ [(w.opened, key)]) : k = k' := by
  rcases mem_append_one.1 hk with hk | hk <;> rcases mem_append_one.1 hk' with hk' | hk'
  · exact h.unique n k k' hk hk'
  · exact absurd (h.opened_lt n k hk) (by rw [(Prod.mk.inj hk').1]; exact Nat.lt_irrefl _)
  · exact absurd (h.opened_lt n k' hk') (by rw [(Prod.mk.inj hk).1]; exact Nat.lt_irrefl _)
  · rw [(Prod.mk.inj hk).2, (Prod.mk.inj hk').2]

private theorem opened_lt_append (h : w.Sound os ds) (key : Key) (n : Nat) (k : Key)
    (hk : (n, k) ∈ os ++ [(w.opened, key)]) : n < w.opened + 1 := by
  rcases mem_append_one.1 hk with hk | hk
  · exact Nat.lt_succ_of_lt (h.opened_lt n k hk)
  · rw [(Prod.mk.inj hk).1]
    exact Nat.lt_succ_self _

/-- The next connection is opened to a participant. -/
theorem openLine (h : w.Sound os ds) (u : UserId) :
    Sound ⟨fun u' => if u' = u then some w.opened else w.lines u', w.session, w.opened + 1⟩
      (os ++ [(w.opened, .participant u)]) ds where
  opened_lt := h.opened_lt_append _
  unique := h.unique_append _
  destroyed_lt n hn := Nat.lt_succ_of_lt (h.destroyed_lt n hn)
  line_opened u' n hn := by
    rw [mem_append_one]
    dsimp only at hn
    split at hn
    · rename_i hu
      rw [← Option.some.inj hn, hu]
      exact Or.inr rfl
    · exact Or.inl (h.line_opened u' n hn)
  line_alive u' n hn hd := by
    dsimp only at hn
    split at hn
    · exact absurd (h.destroyed_lt n hd) (by rw [← Option.some.inj hn]; exact Nat.lt_irrefl _)
    · exact h.line_alive u' n hn hd
  line_newest u' n hn n' hn' := by
    dsimp only at hn
    split at hn
    · rw [← Option.some.inj hn]
      exact Nat.le_of_lt_succ (h.opened_lt_append _ n' _ hn')
    · rename_i hu
      rcases mem_append_one.1 hn' with hn' | hn'
      · exact h.line_newest u' n hn n' hn'
      · exact absurd (Key.participant.inj (Prod.mk.inj hn').2) hu
  session_opened n hn := List.mem_append_left _ (h.session_opened n hn)
  session_alive := h.session_alive

/-- The next connection is opened to the recording service. -/
theorem openSession (h : w.Sound os ds) :
    Sound ⟨w.lines, some w.opened, w.opened + 1⟩ (os ++ [(w.opened, .recording)]) ds where
  opened_lt := h.opened_lt_append _
  unique := h.unique_append _
  destroyed_lt n hn := Nat.lt_succ_of_lt (h.destroyed_lt n hn)
  line_opened u n hn := List.mem_append_left _ (h.line_opened u n hn)
  line_alive := h.line_alive
  line_newest u n hn n' hn' := by
    rcases mem_append_one.1 hn' with hn' | hn'
    · exact h.line_newest u n hn n' hn'
    · cases (Prod.mk.inj hn').2
  session_opened n hn := mem_append_one.2 (Or.inr (by rw [← Option.some.inj hn]))
  session_alive n hn hd :=
    absurd (h.destroyed_lt n hd) (by rw [← Option.some.inj hn]; exact Nat.lt_irrefl _)

/-- The connection to a participant is destroyed. -/
theorem destroyLine (h : w.Sound os ds) {u : UserId} {n : Nat} (hn : w.lines u = some n) :
    Sound ⟨fun u' => if u' = u then none else w.lines u', w.session, w.opened⟩ os (ds ++ [n]) where
  opened_lt := h.opened_lt
  unique := h.unique
  destroyed_lt m hm := by
    rcases List.mem_append.1 hm with hm | hm
    · exact h.destroyed_lt m hm
    · rw [List.mem_singleton.1 hm]
      exact h.opened_lt n _ (h.line_opened u n hn)
  line_opened u' m hm := by
    dsimp only at hm
    split at hm
    · cases hm
    · exact h.line_opened u' m hm
  line_alive u' m hm hd := by
    dsimp only at hm
    split at hm
    · cases hm
    · rename_i hu
      rcases List.mem_append.1 hd with hd | hd
      · exact h.line_alive u' m hm hd
      · obtain rfl := List.mem_singleton.1 hd
        exact hu
          (Key.participant.inj (h.unique m _ _ (h.line_opened u' m hm) (h.line_opened u m hn)))
  line_newest u' m hm := by
    dsimp only at hm
    split at hm
    · cases hm
    · exact h.line_newest u' m hm
  session_opened := h.session_opened
  session_alive m hm hd := by
    rcases List.mem_append.1 hd with hd | hd
    · exact h.session_alive m hm hd
    · obtain rfl := List.mem_singleton.1 hd
      cases h.unique m _ _ (h.session_opened m hm) (h.line_opened u m hn)

/-- The connection to the recording service is destroyed. -/
theorem destroySession (h : w.Sound os ds) {n : Nat} (hn : w.session = some n) :
    Sound ⟨w.lines, none, w.opened⟩ os (ds ++ [n]) where
  opened_lt := h.opened_lt
  unique := h.unique
  destroyed_lt m hm := by
    rcases List.mem_append.1 hm with hm | hm
    · exact h.destroyed_lt m hm
    · rw [List.mem_singleton.1 hm]
      exact h.opened_lt n _ (h.session_opened n hn)
  line_opened := h.line_opened
  line_alive u m hm hd := by
    rcases List.mem_append.1 hd with hd | hd
    · exact h.line_alive u m hm hd
    · obtain rfl := List.mem_singleton.1 hd
      cases h.unique m _ _ (h.session_opened m hn) (h.line_opened u m hm)
  line_newest := h.line_newest
  session_opened _ hm := by cases hm
  session_alive _ hm := by cases hm

/-- Some connections that a call holds on to are destroyed, and it lets go of all. -/
theorem letGo (h : w.Sound os ds) {ns : List Nat}
    (hn : ∀ n ∈ ns, (∃ u, w.lines u = some n) ∨ w.session = some n) :
    Sound ⟨fun _ => none, none, w.opened⟩ os (ds ++ ns) where
  opened_lt := h.opened_lt
  unique := h.unique
  destroyed_lt m hm := by
    rcases List.mem_append.1 hm with hm | hm
    · exact h.destroyed_lt m hm
    · rcases hn m hm with ⟨u, hu⟩ | hs
      · exact h.opened_lt m _ (h.line_opened u m hu)
      · exact h.opened_lt m _ (h.session_opened m hs)
  line_opened _ _ hm := by cases hm
  line_alive _ _ hm := by cases hm
  line_newest _ _ hm := by cases hm
  session_opened _ hm := by cases hm
  session_alive _ hm := by cases hm

end Sound

end Wiring

/-- The wiring of a call is sound after the effects so far. -/
def Wired (c : Call) (es : List Effect) : Prop :=
  c.wiring.Sound (Effect.opened es) (Effect.destroyed es)

namespace Wired

variable {c c' : Call} {es fs : List Effect}

theorem quiet (h : Wired c es) (hw : c'.wiring = c.wiring) (ho : Effect.opened fs = [])
    (hd : Effect.destroyed fs = []) : Wired c' (es ++ fs) := by
  unfold Wired
  rw [hw, Effect.opened_append, Effect.destroyed_append, ho, hd, List.append_nil, List.append_nil]
  exact h

theorem openLine (h : Wired c es) (u : UserId) (l : Line) {b : Switchboard}
    (hl : l.number = c.board.opened) (hb : b.opened = c.board.opened + 1)
    (ho : Effect.opened fs = [(c.board.opened, .participant u)]) (hd : Effect.destroyed fs = []) :
    Wired { c with mesh := ⟨c.mesh.lines.insert u l⟩, board := b } (es ++ fs) := by
  have hw : wiring { c with mesh := ⟨c.mesh.lines.insert u l⟩, board := b } =
      ⟨fun u' => if u' = u then some c.board.opened else c.wiring.lines u', c.wiring.session,
        c.board.opened + 1⟩ := by
    simp only [wiring, hb, Table.get?_insert, Std.LawfulEqCmp.compare_eq_iff_eq]
    congr 1
    funext u'
    split
    · rw [Option.map_some, hl]
    · rfl
  unfold Wired
  rw [hw, Effect.opened_append, Effect.destroyed_append, ho, hd, List.append_nil]
  exact Wiring.Sound.openLine h u

theorem openSession (h : Wired c es) (s : Recorder.Session) {r : Recorder} {b : Switchboard}
    (hr : r.session = some s) (hs : s.line = c.board.opened) (hb : b.opened = c.board.opened + 1)
    (ho : Effect.opened fs = [(c.board.opened, .recording)]) (hd : Effect.destroyed fs = []) :
    Wired { c with recorder := r, board := b } (es ++ fs) := by
  have hw : wiring { c with recorder := r, board := b } =
      ⟨c.wiring.lines, some c.board.opened, c.board.opened + 1⟩ := by
    simp only [wiring, hb, hr, Option.map_some, hs]
  unfold Wired
  rw [hw, Effect.opened_append, Effect.destroyed_append, ho, hd, List.append_nil]
  exact Wiring.Sound.openSession h

theorem destroyLine (h : Wired c es) {u : UserId} {l : Line} (hl : c.mesh.lines.get? u = some l)
    (ho : Effect.opened fs = []) (hd : Effect.destroyed fs = [l.number]) :
    Wired { c with mesh := ⟨c.mesh.lines.erase u⟩ } (es ++ fs) := by
  have hw : wiring { c with mesh := ⟨c.mesh.lines.erase u⟩ } =
      ⟨fun u' => if u' = u then none else c.wiring.lines u', c.wiring.session,
        c.wiring.opened⟩ := by
    simp only [wiring, Table.get?_erase, Std.LawfulEqCmp.compare_eq_iff_eq]
    congr 1
    funext u'
    split <;> rfl
  unfold Wired
  rw [hw, Effect.opened_append, Effect.destroyed_append, ho, hd, List.append_nil]
  exact Wiring.Sound.destroyLine h (by simp [wiring, hl])

theorem destroySession (h : Wired c es) {s : Recorder.Session} {r : Recorder}
    (hs : c.recorder.session = some s) (hr : r.session = none) (ho : Effect.opened fs = [])
    (hd : Effect.destroyed fs = [s.line]) : Wired { c with recorder := r } (es ++ fs) := by
  have hw : wiring { c with recorder := r } = ⟨c.wiring.lines, none, c.wiring.opened⟩ := by
    simp only [wiring, hr, Option.map_none]
  unfold Wired
  rw [hw, Effect.opened_append, Effect.destroyed_append, ho, hd, List.append_nil]
  exact Wiring.Sound.destroySession h (by simp [wiring, hs])

theorem letGo (h : Wired c es) (hm : c'.mesh = .empty) (hr : c'.recorder.session = none)
    (hb : c'.board.opened = c.board.opened) (ho : Effect.opened fs = [])
    (hd : Effect.destroyed fs = c.held) : Wired c' (es ++ fs) := by
  have hw : c'.wiring = ⟨fun _ => none, none, c.wiring.opened⟩ := by
    unfold wiring
    rw [hm, hr, hb]
    rfl
  unfold Wired
  rw [hw, Effect.opened_append, Effect.destroyed_append, ho, hd, List.append_nil]
  refine Wiring.Sound.letGo h fun n hn => (mem_held_iff.1 hn).imp ?_ ?_
  · rintro ⟨u, l, hl, rfl⟩
    exact ⟨u, by simp [wiring, hl]⟩
  · rintro ⟨s, hs, rfl⟩
    simp [wiring, hs]

end Wired

variable {c c' : Call} {o : Outcome Call}

/-! ### Moves and histories -/

theorem Resembles.wiring_eq (h : Resembles c c') : c'.wiring = c.wiring := by
  unfold wiring
  rw [h.mesh, h.line, h.opened]

/-- Of a connection only the number is part of the wiring. -/
theorem wiring_insert {user : UserId} {l l' : Line} (hl : c.mesh.lines.get? user = some l)
    (hn : l'.number = l.number) :
    wiring { c with mesh := ⟨c.mesh.lines.insert user l'⟩ } = c.wiring := by
  simp only [wiring, Table.get?_insert, Std.LawfulEqCmp.compare_eq_iff_eq]
  congr 1
  funext u
  split
  · rename_i hu
    rw [hu, hl, Option.map_some, Option.map_some, hn]
  · rfl

/-- Every move of a call keeps the wiring sound. -/
theorem leads_move (h : Move c o) : Leads (Wired c) o Wired := by
  intro es hes
  cases h with
  | pass h hfs =>
    obtain ⟨ho, hd⟩ := Effect.dealings_of_asides hfs
    exact hes.quiet h.wiring_eq ho hd
  | connect _ _ hb => exact hes.openLine _ _ rfl hb rfl rfl
  | phase hl _ hfs =>
    obtain ⟨ho, hd⟩ := Effect.dealings_of_asides hfs
    exact hes.quiet (wiring_insert hl rfl) ho hd
  | tearDown hl hfs _ =>
    obtain ⟨ho, hd⟩ := Effect.dealings_of_gallery hfs
    exact hes.destroyLine hl ((Effect.opened_publish _ _).trans ho)
      ((Effect.destroyed_publish _ _).trans (congrArg _ hd))
  | change _ h _ hfs _ =>
    obtain ⟨ho, hd⟩ := Effect.dealings_of_gallery hfs
    exact hes.quiet h.wiring_eq ((Effect.opened_publish _ _).trans ho)
      ((Effect.destroyed_publish _ _).trans hd)
  | record _ hr hs _ hb hfs =>
    obtain ⟨ho, hd⟩ := Effect.dealings_of_asides hfs
    exact hes.openSession _ hr (congrArg Prod.snd hs) hb
      ((Effect.opened_publish _ _).trans (congrArg _ ho)) ((Effect.destroyed_publish _ _).trans hd)
  | stop hs hr _ hfs =>
    obtain ⟨ho, hd⟩ := Effect.dealings_of_asides hfs
    exact hes.destroySession hs hr ((Effect.opened_publish _ _).trans ho)
      ((Effect.destroyed_publish _ _).trans (congrArg _ hd))
  | release _ hb hm hr _ _ ho hd _ _ =>
    exact hes.letGo hm hr hb ((Effect.opened_publish _ _).trans ho)
      ((Effect.destroyed_publish _ _).trans hd)

/-- Every moment of a call keeps the wiring sound. -/
theorem leads_meet (c : Call) (m : Moment) : Leads (Wired c) (c.meet m) Wired :=
  (c.moves_meet m).leads fun _ _ => leads_move

theorem wired_fresh (s : Settings) (room : RoomId) (user : UserId) (urls : UrlSource) :
    Wired (fresh s room user urls .none) [] where
  opened_lt _ _ h := absurd h List.not_mem_nil
  unique _ _ _ h := absurd h List.not_mem_nil
  destroyed_lt _ h := absurd h List.not_mem_nil
  line_opened _ _ h := by cases h
  line_alive _ _ h := by cases h
  line_newest _ _ h := by cases h
  session_opened _ h := by cases h
  session_alive _ h := by cases h

/-- The wiring of a call is sound in every history. -/
theorem wired_run (s : Settings) (room : RoomId) (user : UserId) (urls : UrlSource)
    (moments : List Moment) :
    Wired ((fresh s room user urls .none).run moments).value
      ((fresh s room user urls .none).run moments).effects :=
  Leads.forEach leads_meet moments _ [] (wired_fresh s room user urls)

end Call

end VideoCall

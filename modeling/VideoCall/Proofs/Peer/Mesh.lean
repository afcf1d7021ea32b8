import Mathlib.Data.List.Basic
import VideoCall.Peer.Mesh

/-!
# What a mesh does, case by case

What comes of a wish for a connection depends on whether there is one already and whether the media
stack refuses; what comes of all else depends on whether there is a connection.

## Main results

* `Peer.Mesh.create_of_get?`, `Peer.Mesh.create_of_refused`, `Peer.Mesh.create_of_none` : there is
  a connection already, it is refused, or it is opened.
* `Peer.Mesh.signal_of_get?`, `Peer.Mesh.close_of_get?`, … : there is a connection.
* `Peer.Mesh.get?_create`, `Peer.Mesh.get?_signal`, … : what becomes of each connection.
* `Peer.Mesh.value_closeAll`, `Peer.Mesh.destroyed_closeAll` : all connections are destroyed and
  forgotten.
-/

namespace VideoCall.Peer.Mesh

open Media Wire Outcome

variable {m : Mesh} {user : UserId} {l : Line} (b : Switchboard)

theorem contains_eq_true_iff : m.contains user = true ↔ ∃ l, m.lines.get? user = some l :=
  Option.isSome_iff_exists

section Create

variable (initiator : Bool) (streams : List Stream)

theorem create_of_get? (hl : m.lines.get? user = some l) :
    m.create b user initiator streams = pure (m, b, .ok false) :=
  if_pos (contains_eq_true_iff.2 ⟨l, hl⟩)

variable {b}

private theorem create_of_not_contains (hnone : m.lines.get? user = none)
    {o : Outcome (Switchboard × Except Failure Nat)}
    (ho : b.dial (.participant user) initiator true streams = o) :
    m.create b user initiator streams = (do
      let (b, opened) ← o
      match opened with
      | .error e => return (m, b, .error e)
      | .ok number => do
        count .peersCreated
        return (⟨m.lines.insert user ⟨number, .created, initiator⟩⟩, b, .ok true)) := by
  have hcontains : ¬ m.contains user = true := fun h => by
    obtain ⟨l, hl⟩ := contains_eq_true_iff.1 h
    cases hnone.symm.trans hl
  subst ho
  exact if_neg hcontains

theorem create_of_refused (hnone : m.lines.get? user = none)
    (hrefused : b.refusals.opening (.participant user) = true) :
    m.create b user initiator streams =
      ⟨(m, b, .error Switchboard.refusal),
        [.line (.refused (.participant user) ⟨initiator, b.iceServers, true, streams⟩)]⟩ :=
  create_of_not_contains initiator streams hnone (if_pos hrefused)

theorem create_of_none (hnone : m.lines.get? user = none)
    (haccepted : b.refusals.opening (.participant user) = false) :
    m.create b user initiator streams =
      ⟨(⟨m.lines.insert user ⟨b.opened, .created, initiator⟩⟩,
        { b with opened := b.opened + 1 }, .ok true),
        [.line (.opened b.opened (.participant user) ⟨initiator, b.iceServers, true, streams⟩),
          .measured (.count .peersCreated)]⟩ :=
  create_of_not_contains initiator streams hnone
    (if_neg fun h => Bool.false_ne_true (haccepted.symm.trans h))

end Create

section Rest

variable (s : Signal) (r : Report) (reason : CloseReason)

theorem signal_of_none (hnone : m.lines.get? user = none) :
    m.signal b user s = ⟨(m, false), [.measured (.count (.signalsDropped .unknownPeer))]⟩ := by
  unfold signal
  rw [hnone]
  rfl

theorem signal_of_get? (hl : m.lines.get? user = some l) :
    m.signal b user s =
      ⟨(⟨m.lines.insert user { l with phase := l.phase.afterSignal }⟩, true),
        [.line (.told l.number (.signal s) !b.refusals.signal (.participant user))]⟩ := by
  unfold signal
  rw [hl]
  rfl

theorem report_of_none (hnone : m.lines.get? user = none) : m.report user r = (m, none) := by
  unfold report
  rw [hnone]

theorem report_of_get? (hl : m.lines.get? user = some l) :
    m.report user r =
      (⟨m.lines.insert user { l with phase := l.phase.after r }⟩, some (l.phase.after r)) := by
  unfold report
  rw [hl]

theorem close_of_none (hnone : m.lines.get? user = none) :
    m.close user reason = pure (m, false) := by
  unfold close
  rw [hnone]

theorem close_of_get? (hl : m.lines.get? user = some l) :
    m.close user reason =
      ⟨(⟨m.lines.erase user⟩, true),
        [.line (.destroyed l.number), .measured (.count (.peersClosed reason))]⟩ := by
  unfold close
  rw [hl]
  rfl

end Rest

/-! ### Look-ups -/

section LookUps

variable (m : Mesh) (user u : UserId)

/-- A connection is opened to a participant to whom there is none, unless the media stack
refuses. -/
theorem get?_create (initiator : Bool) (streams : List Stream) :
    (m.create b user initiator streams).value.1.lines.get? u =
      if u = user ∧ m.lines.get? user = none ∧ b.refusals.opening (.participant user) = false then
        some ⟨b.opened, .created, initiator⟩
      else m.lines.get? u := by
  cases hk : m.lines.get? user with
  | some k =>
    rw [create_of_get? b initiator streams hk, if_neg fun h => Option.some_ne_none k h.2.1]
    rfl
  | none =>
    cases hopening : b.refusals.opening (.participant user) with
    | true =>
      rw [create_of_refused initiator streams hk hopening,
        if_neg fun h => Bool.false_ne_true h.2.2.symm]
    | false =>
      rw [create_of_none initiator streams hk hopening]
      simp

theorem get?_eq_ite_of_none (hk : m.lines.get? user = none) (f : Line → Line) :
    m.lines.get? u = if u = user then (m.lines.get? u).map f else m.lines.get? u := by
  by_cases h : u = user
  · subst h
    simp [hk]
  · simp [h]

theorem get?_insert_change {k : Line} (hk : m.lines.get? user = some k) (f : Line → Line) :
    (m.lines.insert user (f k)).get? u =
      if u = user then (m.lines.get? u).map f else m.lines.get? u := by
  by_cases h : u = user
  · subst h
    simp [hk]
  · simp [h]

/-- An envelope comes in for one connection. -/
theorem get?_signal (s : Signal) :
    (m.signal b user s).value.1.lines.get? u =
      if u = user then
        (m.lines.get? u).map fun l => { l with phase := l.phase.afterSignal }
      else m.lines.get? u := by
  cases hk : m.lines.get? user with
  | none =>
    rw [signal_of_none b s hk]
    exact m.get?_eq_ite_of_none user u hk _
  | some k =>
    rw [signal_of_get? b s hk]
    exact m.get?_insert_change user u hk fun l => { l with phase := l.phase.afterSignal }

/-- One connection reports. -/
theorem get?_report (r : Report) :
    (m.report user r).1.lines.get? u =
      if u = user then (m.lines.get? u).map fun l => { l with phase := l.phase.after r }
      else m.lines.get? u := by
  cases hk : m.lines.get? user with
  | none =>
    rw [report_of_none r hk]
    exact m.get?_eq_ite_of_none user u hk _
  | some k =>
    rw [report_of_get? r hk]
    exact m.get?_insert_change user u hk fun l => { l with phase := l.phase.after r }

/-- One connection is forgotten. -/
theorem get?_close (reason : CloseReason) :
    (m.close user reason).value.1.lines.get? u =
      if u = user then none else m.lines.get? u := by
  cases hk : m.lines.get? user with
  | none =>
    rw [close_of_none reason hk]
    by_cases h : u = user <;> simp [h, hk]
  | some k =>
    rw [close_of_get? reason hk]
    simp [Table.get?_erase]

end LookUps

/-! ### The end of all connections -/

section CloseAll

variable (m : Mesh) (u : UserId) (reason : CloseReason)

theorem get?_closeEach (users : List UserId) :
    (forEach (fun m user => (·.1) <$> close m user reason) users m).value.lines.get? u =
      if u ∈ users then none else m.lines.get? u := by
  induction users generalizing m with
  | nil => simp
  | cons user users ih =>
    rw [forEach_cons, value_bind, value_map, ih, get?_close]
    by_cases hu : u = user <;> simp [hu]

/-- No connection is left when all are closed, and everybody to whom there was one is told. -/
theorem value_closeAll : (m.closeAll reason).value = (.empty, m.lines.keys) := by
  refine congrArg (·, m.lines.keys) (congrArg Mesh.mk (Table.ext_get? fun u => ?_))
  rw [get?_closeEach]
  split
  · rfl
  · rename_i hu
    cases hl : m.lines.get? u with
    | none => rfl
    | some l => exact absurd (Table.mem_keys_iff.2 ⟨l, hl⟩) hu

theorem get?_closeAll : (m.closeAll reason).value.1.lines.get? u = none := by
  rw [value_closeAll]
  rfl

theorem destroyed_close (user : UserId) : Effect.destroyed (m.close user reason).effects =
    ((m.lines.get? user).map Line.number).toList := by
  cases hl : m.lines.get? user with
  | none =>
    rw [close_of_none reason hl]
    rfl
  | some l =>
    rw [close_of_get? reason hl]
    rfl

/-- Closing connections in turn destroys those that there are. -/
theorem destroyed_closeEach {users : List UserId} (hnodup : users.Nodup) :
    Effect.destroyed (forEach (fun m user => (·.1) <$> close m user reason) users m).effects =
      users.filterMap fun user => (m.lines.get? user).map Line.number := by
  induction users generalizing m with
  | nil => rfl
  | cons user users ih =>
    obtain ⟨hnot, hnodup⟩ := List.nodup_cons.1 hnodup
    -- the other connections are as they were
    have hothers : (users.filterMap fun u =>
        ((m.close user reason).value.1.lines.get? u).map Line.number) =
        users.filterMap fun u => (m.lines.get? u).map Line.number := by
      refine List.filterMap_congr fun u hu => ?_
      rw [get?_close, if_neg]
      rintro rfl
      exact hnot hu
    rw [forEach_cons, effects_bind, Effect.destroyed_append, effects_map, value_map,
      destroyed_close, ih _ hnodup, hothers, List.filterMap_cons]
    cases m.lines.get? user <;> rfl

/-- Closing all connections destroys each of them. -/
theorem destroyed_closeAll :
    Effect.destroyed (m.closeAll reason).effects = m.lines.values.map Line.number := by
  have hvalues : (m.lines.keys.filterMap fun user => (m.lines.get? user).map Line.number) =
      m.lines.values.map Line.number := by
    unfold Table.keys Table.values
    rw [List.filterMap_map, List.map_map, ← List.filterMap_eq_map]
    refine List.filterMap_congr fun e he => ?_
    have hget : m.lines.get? e.1 = some e.2 := Table.mem_entries_iff.1 he
    rw [Function.comp_apply, hget]
    rfl
  rw [← hvalues, ← m.destroyed_closeEach reason m.lines.nodup_keys]
  exact congrArg Effect.destroyed (List.append_nil _)

end CloseAll

end VideoCall.Peer.Mesh

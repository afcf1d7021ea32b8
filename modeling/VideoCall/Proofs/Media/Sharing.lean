import VideoCall.Proofs.Media.Lineage

/-!
# What streams share

Streams that have a track in common share its handle, so a track that is stopped in one of them is
stopped in all. They share nothing else: what is taken in or dropped by one stream is no matter of
the others, be they copies of it or not.

## Main results

* `Media.Collection.follows_lineage` : a stream follows what happened to it, and to the stream that
  it is a copy of before it was copied.
* `Media.Collection.streams_run` : a stream is up to the changes that have it for their target.
* `Media.Stopped.answer_iff` : of the calls that stop a handle the first one does.
* `Media.Collection.shares_handles_run` : all of it, in every history.
-/

namespace VideoCall.Media

/-! ### Handles -/

namespace Stopped

variable (s : Stopped)

theorem answers_append (ts ts' : List Track) :
    s.answers (ts ++ ts') = s.answers ts ++ (ts.foldl stop s).answers ts' := by
  induction ts generalizing s with
  | nil => rfl
  | cons t ts ih => exact congrArg ((t, s.stops t) :: ·) (ih (s.stop t))

theorem exists_mem_answers_iff {ts : List Track} {p : Track → Prop} :
    (∃ call ∈ s.answers ts, p call.1) ↔ ∃ t ∈ ts, p t := by
  induction ts generalizing s with
  | nil => simp [answers]
  | cons t ts ih => simp only [answers, List.mem_cons, exists_eq_or_imp, ih]

/-- A call stops the handle if, and only if, it was not stopped and no call before was for it. -/
theorem answer_iff {ts : List Track} {before after : List (Track × Bool)} {t : Track}
    {answer : Bool} (h : s.answers ts = before ++ (t, answer) :: after) :
    answer = true ↔ ¬ s.contains t ∧ ∀ call ∈ before, call.1.handle ≠ t.handle := by
  induction ts generalizing s before with
  | nil => simp [answers] at h
  | cons t' ts ih =>
    cases before with
    | nil =>
      obtain ⟨⟨rfl, rfl⟩, -⟩ := by simpa [answers] using h
      simp [stops]
    | cons call before =>
      obtain ⟨rfl, hrest⟩ := List.cons.inj h
      rw [ih _ hrest, contains_stop_iff, not_or, and_assoc, List.forall_mem_cons]

end Stopped

namespace Collection

variable (c : Collection) (changes : List Change)

theorem stopped_apply (change : Change) :
    (c.apply change).stopped = (c.told change).foldl Stopped.stop c.stopped := by
  cases change <;> rfl

/-- The calls are those for the tracks that the changes tell to stop, and leave what these leave. -/
theorem exists_calls_eq :
    ∃ ts, c.calls changes = c.stopped.answers ts ∧
      (c.run changes).stopped = ts.foldl Stopped.stop c.stopped := by
  induction changes generalizing c with
  | nil => exact ⟨[], rfl, rfl⟩
  | cons change changes ih =>
    obtain ⟨ts, hcalls, hrun⟩ := ih (c.apply change)
    rw [stopped_apply] at hcalls hrun
    refine ⟨c.told change ++ ts, ?_, ?_⟩
    · rw [calls, hcalls, Stopped.answers_append]
    · rw [List.foldl_append, ← hrun]
      rfl

/-! ### Streams -/

/-- A stream is up to the changes that have it for their target. -/
theorem streams_apply {change : Change} {n : Nat} (h : change.target? ≠ some n) :
    (c.apply change).streams n = c.streams n := by
  cases change with
  | stopStream m => rfl
  | stopTrack t => rfl
  | _ => exact Function.update_of_ne (fun he => h (congrArg some he.symm)) _ _

theorem streams_run {n : Nat} (h : ∀ change ∈ changes, change.target? ≠ some n) :
    (c.run changes).streams n = c.streams n := by
  induction changes generalizing c with
  | nil => rfl
  | cons change changes ih =>
    obtain ⟨hchange, hchanges⟩ := List.forall_mem_cons.1 h
    exact (ih _ hchanges).trans (c.streams_apply hchange)

/-- One stream may be changed if it follows what happens to it then. -/
theorem follows_update {streams : Nat → Stream} {lines : Nat → List Stream.Event}
    (h : ∀ n, (streams n).Follows (lines n)) (n : Nat) {s : Stream} {l : List Stream.Event}
    (hs : s.Follows l) (m : Nat) :
    (Function.update streams n s m).Follows (Function.update lines n l m) := by
  by_cases he : m = n
  · subst he
    rwa [Function.update_self, Function.update_self]
  · rw [Function.update_of_ne he, Function.update_of_ne he]
    exact h m

/-- Streams that follow what happened to them go on to do so. -/
theorem follows_apply {c : Collection} {lines : Nat → List Stream.Event}
    (h : ∀ n, (c.streams n).Follows (lines n)) (change : Change) (m : Nat) :
    ((c.apply change).streams m).Follows (change.record lines m) := by
  cases change with
  | gather n id tracks => exact follows_update h n (.ofTracks id tracks) m
  | copy n source => exact follows_update h n (h source) m
  | add n t => exact follows_update h n ((h n).add t) m
  | remove n id => exact follows_update h n ((h n).remove id) m
  | stopStream n => exact h m
  | stopTrack t => exact h m

/-- Each stream follows what happened to it, from the start. -/
theorem follows_lineage (ids : Nat → StreamId) (n : Nat) :
    (((start ids).run changes).streams n).Follows (lineage changes n) := by
  induction changes using List.reverseRecOn generalizing n with
  | nil => exact .empty (ids n)
  | append_singleton changes change ih =>
    rw [run, lineage, List.foldl_append, List.foldl_append]
    exact follows_apply ih change n

/-! ### All of it -/

/-- In every history of any number of streams, whose tracks may have any handles and ids:

* each stream follows what happened to it: its ids are distinct, and its tracks are those that were
  taken in last of those with their ids, in that order;
* a call to add takes a track in if, and only if, its id is not there;
* a call to remove takes a track out if, and only if, its id is there;
* a stream is the same until a change has it for its target, and a copy is what its source was until
  a change has the copy for its target, whatever becomes of the source;
* the handles that are stopped are those for which there was a call, and they remain stopped;
* a call stops a handle if, and only if, it is the first one for this handle, whether it comes for a
  track or for a stream. -/
theorem shares_handles_run (ids : Nat → StreamId) (changes : List Change) :
    let c := (start ids).run changes
    let calls := (start ids).calls changes
    (∀ n, (c.streams n).Follows (lineage changes n)) ∧
    (∀ n t, (c.streams n).adds t = true ↔ t.id ∉ (c.streams n).trackIds) ∧
    (∀ n id, (c.streams n).removes id = true ↔ id ∈ (c.streams n).trackIds) ∧
    (∀ n later, (∀ change ∈ later, change.target? ≠ some n) →
      (c.run later).streams n = c.streams n) ∧
    (∀ m n later, (∀ change ∈ later, change.target? ≠ some m) →
      ((c.apply (.copy m n)).run later).streams m = c.streams n) ∧
    (∀ t, c.stopped.contains t = true ↔ ∃ call ∈ calls, call.1.handle = t.handle) ∧
    (∀ t later, c.stopped.contains t = true → (c.run later).stopped.contains t = true) ∧
    ∀ before t answer after, calls = before ++ (t, answer) :: after →
      (answer = true ↔ ∀ call ∈ before, call.1.handle ≠ t.handle) := by
  intro c calls
  obtain ⟨ts, hcalls, hrun⟩ : ∃ ts, calls = (start ids).stopped.answers ts ∧
      c.stopped = ts.foldl Stopped.stop (start ids).stopped := (start ids).exists_calls_eq changes
  have hnone (t : Track) : ¬ (start ids).stopped.contains t := nofun
  refine ⟨follows_lineage changes ids, fun n t => Stream.adds_iff, fun n id => Stream.removes_iff,
    fun n later h => c.streams_run later h, fun m n later h => ?_, fun t => ?_, fun t later h => ?_,
    fun before t answer after h => ?_⟩
  · exact (streams_run _ later h).trans (Function.update_self m _ _)
  · rw [hrun, Stopped.contains_foldl_stop_iff, hcalls]
    exact (or_iff_right (hnone t)).trans (Stopped.exists_mem_answers_iff _).symm
  · obtain ⟨ts', -, hlater⟩ := c.exists_calls_eq later
    rw [hlater, Stopped.contains_foldl_stop_iff]
    exact Or.inl h
  · rw [Stopped.answer_iff _ (hcalls.symm.trans h)]
    exact and_iff_right (hnone t)

end Collection

end VideoCall.Media

import VideoCall.Proofs.Outcome

/-!
# What effects bear on

Each effect bears on one thing: on the gallery, on connections, on the relay, on the participant,
and so on. A step of a call bears on few of them, and what it does not bear on, a list of its
effects does not show. Most effects matter to nothing else: something is worded, sent, answered,
counted, or passed on to a connection. Others are what histories are about: a connection is opened
or destroyed, streams or the state of the recording are published, and the gallery makes and
releases URLs.

## Main definitions

* `Effect.Part`, `Effect.part`, `Effect.Within` : what an effect bears on.
* `Effect.Part.asides` : what is done in passing.
* `Effect.snapshots`, `Effect.recordings`, `Effect.complaints` : what was published of streams, of
  the recording, and of errors.

## Main results

* `Effect.opened_eq_nil`, `Effect.urls_eq_nil`, `Effect.answers_eq_nil`, … : what effects do not
  bear on, they do not show.
* `Outcome.Emits.also` : two steps bear on what either of them bears on.
-/

namespace VideoCall

open Outcome

namespace Effect

/-! ### Parts -/

/-- What an effect can bear on. -/
inductive Part
  /-- URLs, tracks and legs, and the records of the gallery. -/
  | gallery
  /-- Counters and gauges. -/
  | metrics
  | opening
  | destruction
  /-- What an open connection is told, and a connection that is refused. -/
  | command
  /-- The recording service. -/
  | join
  | relay
  /-- Words and bytes for the participant. -/
  | words
  /-- What there is to render. -/
  | streams
  /-- Whether there is a recording. -/
  | recording
  | answer
  deriving DecidableEq

/-- What an effect bears on. -/
def part : Effect → Part
  | .url _ => .gallery
  | .stopped _ => .gallery
  | .leg _ => .gallery
  | .missed _ => .gallery
  | .measured _ => .metrics
  | .line (.opened _ _ _) => .opening
  | .line (.destroyed _) => .destruction
  | .line (.told _ _ _) => .command
  | .line (.refused _ _) => .command
  | .joinRequested _ _ => .join
  | .sent _ => .relay
  | .published (.notification _ _) => .words
  | .published (.data _ _) => .words
  | .published (.streams _) => .streams
  | .published (.recording _) => .recording
  | .answered _ _ => .answer

/-- The effects that bear on one of several things. -/
def Within (ps : List Part) (e : Effect) : Prop := e.part ∈ ps

/-- What is done in passing: nothing that histories are about. -/
def Part.asides : List Part := [.metrics, .command, .join, .relay, .words, .answer]

/-! ### Views -/

/-- What was published of the streams. -/
def snapshots (es : List Effect) : List Gallery.Snapshot :=
  (notices es).filterMap fun | .streams s => some s | _ => none

/-- What was published of the recording: whether there is one. -/
def recordings (es : List Effect) : List Bool :=
  (notices es).filterMap fun | .recording active => some active | _ => none

/-- The errors that the participant was told of. -/
def complaints (es : List Effect) : List String :=
  (notices es).filterMap fun | .notification .error message => some message | _ => none

section Append

variable (es fs : List Effect)

@[simp]
theorem stops_append : stops (es ++ fs) = stops es ++ stops fs := List.filterMap_append

@[simp]
theorem joins_append : joins (es ++ fs) = joins es ++ joins fs := List.filterMap_append

@[simp]
theorem answers_append : answers (es ++ fs) = answers es ++ answers fs := List.filterMap_append

@[simp]
theorem notices_append : notices (es ++ fs) = notices es ++ notices fs := List.filterMap_append

@[simp]
theorem snapshots_append : snapshots (es ++ fs) = snapshots es ++ snapshots fs := by
  simp [snapshots]

@[simp]
theorem recordings_append : recordings (es ++ fs) = recordings es ++ recordings fs := by
  simp [recordings]

@[simp]
theorem complaints_append : complaints (es ++ fs) = complaints es ++ complaints fs := by
  simp [complaints]

/-! What is published last is no dealing with connections, and does nothing to URLs. -/

theorem urls_publish (n : Notice) : urls (es ++ [.published n]) = urls es := by
  rw [urls_append]
  exact List.append_nil _

theorem opened_publish (n : Notice) : opened (es ++ [.published n]) = opened es := by
  rw [opened_append]
  exact List.append_nil _

theorem destroyed_publish (n : Notice) : destroyed (es ++ [.published n]) = destroyed es := by
  rw [destroyed_append]
  exact List.append_nil _

end Append

section Within

variable {es : List Effect} {ps : List Part}

/-- A view that shows one part only shows nothing of effects that do not bear on it. -/
private theorem filterMap_eq_nil {β : Type} {view : Effect → Option β} {p : Part}
    (hview : ∀ e b, view e = some b → e.part = p) (h : ∀ e ∈ es, e.Within ps) (hp : p ∉ ps) :
    es.filterMap view = [] := by
  refine List.filterMap_eq_nil_iff.2 fun e he => Option.eq_none_iff_forall_ne_some.2 fun b hb => ?_
  exact hp (hview e b hb ▸ h e he)

theorem urls_eq_nil (h : ∀ e ∈ es, e.Within ps) (hp : .gallery ∉ ps) : urls es = [] :=
  filterMap_eq_nil (fun e _ he => by cases e <;> first | rfl | cases he) h hp

theorem stops_eq_nil (h : ∀ e ∈ es, e.Within ps) (hp : .gallery ∉ ps) : stops es = [] :=
  filterMap_eq_nil (fun e _ he => by cases e <;> first | rfl | cases he) h hp

theorem joins_eq_nil (h : ∀ e ∈ es, e.Within ps) (hp : .join ∉ ps) : joins es = [] :=
  filterMap_eq_nil (fun e _ he => by cases e <;> first | rfl | cases he) h hp

theorem answers_eq_nil (h : ∀ e ∈ es, e.Within ps) (hp : .answer ∉ ps) : answers es = [] :=
  filterMap_eq_nil (fun e _ he => by cases e <;> first | rfl | cases he) h hp

theorem opened_eq_nil (h : ∀ e ∈ es, e.Within ps) (hp : .opening ∉ ps) : opened es = [] := by
  unfold opened lines
  rw [List.filterMap_filterMap]
  refine filterMap_eq_nil (p := .opening) (fun e _ he => ?_) h hp
  cases e with
  | line l => cases l <;> first | rfl | cases he
  | _ => cases he

theorem destroyed_eq_nil (h : ∀ e ∈ es, e.Within ps) (hp : .destruction ∉ ps) :
    destroyed es = [] := by
  unfold destroyed lines
  rw [List.filterMap_filterMap]
  refine filterMap_eq_nil (p := .destruction) (fun e _ he => ?_) h hp
  cases e with
  | line l => cases l <;> first | rfl | cases he
  | _ => cases he

theorem snapshots_eq_nil (h : ∀ e ∈ es, e.Within ps) (hp : .streams ∉ ps) : snapshots es = [] := by
  unfold snapshots notices
  rw [List.filterMap_filterMap]
  refine filterMap_eq_nil (p := .streams) (fun e _ he => ?_) h hp
  cases e with
  | published n => cases n <;> first | rfl | cases he
  | _ => cases he

theorem recordings_eq_nil (h : ∀ e ∈ es, e.Within ps) (hp : .recording ∉ ps) :
    recordings es = [] := by
  unfold recordings notices
  rw [List.filterMap_filterMap]
  refine filterMap_eq_nil (p := .recording) (fun e _ he => ?_) h hp
  cases e with
  | published n => cases n <;> first | rfl | cases he
  | _ => cases he

theorem complaints_eq_nil (h : ∀ e ∈ es, e.Within ps) (hp : .words ∉ ps) : complaints es = [] := by
  unfold complaints notices
  rw [List.filterMap_filterMap]
  refine filterMap_eq_nil (p := .words) (fun e _ he => ?_) h hp
  cases e with
  | published n => cases n <;> first | rfl | cases he
  | _ => cases he

/-- What is done in passing has no dealings with connections. -/
theorem dealings_of_asides (h : ∀ e ∈ es, e.Within Part.asides) :
    opened es = [] ∧ destroyed es = [] :=
  ⟨opened_eq_nil h (by decide), destroyed_eq_nil h (by decide)⟩

/-- Nor has what a gallery does, and what goes with it. -/
theorem dealings_of_gallery (h : ∀ e ∈ es, e.Within (.gallery :: Part.asides)) :
    opened es = [] ∧ destroyed es = [] :=
  ⟨opened_eq_nil h (by decide), destroyed_eq_nil h (by decide)⟩

end Within

end Effect

/-! ### Steps one after the other -/

namespace Outcome.Emits

open Effect

variable {α β : Type} {o : Outcome α} {f : α → Outcome β} {ps qs : List Part}

theorem widen (h : Emits (Within ps) o) (hps : ∀ p ∈ ps, p ∈ qs) : Emits (Within qs) o :=
  h.mono fun _ he => hps _ he

/-- Two steps bear on what either of them bears on. -/
theorem also (h : Emits (Within ps) o) (hf : Emits (Within qs) (f o.value)) :
    Emits (Within (ps ++ qs)) (o >>= f) :=
  .bind (h.widen fun _ => List.mem_append_left qs) (hf.widen fun _ => List.mem_append_right ps)

end Outcome.Emits

/-! ### Metrics -/

theorem Outcome.within_count (counter : Counter) :
    Emits (Effect.Within [.metrics]) (count counter) :=
  .emit (List.mem_singleton_self _)

theorem Outcome.within_gauge (gauge : Gauge) (n : Nat) :
    Emits (Effect.Within [.metrics]) (Outcome.gauge gauge n) :=
  .emit (List.mem_singleton_self _)

end VideoCall

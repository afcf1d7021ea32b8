import Mathlib.Data.List.Chain
import VideoCall.Proofs.Call.Reactions
import VideoCall.Proofs.Metric

/-!
# What is published is up to date

A participant who listens to what a call publishes, and asks for nothing, knows what there is to
render and whether there is a recording: the latest word on either is true once an input was dealt
with, and before the first word there is nothing to render and no recording. That a recording begins
or ends is published once.

## Main definitions

* `Call.Told` : the latest words on streams and recording are true.
* `Call.Tells` : a step publishes what it changes.

## Main results

* `Call.tells_move` : every move of a call publishes what it changes.
* `Call.told_run` : the words are true in every history.
-/

namespace VideoCall.Call

open Outcome Peer Media

/-- The latest words on streams and recording are true. -/
structure Told (c : Call) (es : List Effect) : Prop where
  /-- What was published last is what there is to render; nothing, if none was published. -/
  streams : (Effect.snapshots es).getLastD ⟨[], []⟩ = c.gallery.snapshot
  /-- What was published last is whether there is a recording; there is none, if none was
  published. -/
  recording : (Effect.recordings es).getLastD false = c.recorder.active
  /-- A recording that was published as begun ends before another one begins, and so on. -/
  alternating : (false :: Effect.recordings es).IsChain (· ≠ ·)

/-- A step publishes what it changes: what there is to render last of all, and that the recording
began or ended, if it did. -/
structure Tells (c : Call) (o : Outcome Call) : Prop where
  streams : (Effect.snapshots o.effects).getLastD c.gallery.snapshot = o.value.gallery.snapshot
  recording : Effect.recordings o.effects =
    if o.value.recorder.active = c.recorder.active then [] else [o.value.recorder.active]

/-- The words stay true if every step publishes what it changes. -/
theorem Told.append {c : Call} {es : List Effect} {o : Outcome Call} (h : Told c es)
    (ho : Tells c o) : Told o.value (es ++ o.effects) := by
  obtain ⟨hstreams, hrecording⟩ := ho
  constructor
  · rw [Effect.snapshots_append, getLastD_append, h.streams]
    exact hstreams
  · rw [Effect.recordings_append, getLastD_append, h.recording, hrecording]
    split
    · rename_i he
      exact he.symm
    · rfl
  · rw [Effect.recordings_append, hrecording]
    split
    · rw [List.append_nil]
      exact h.alternating
    · rename_i hne
      refine h.alternating.append (.singleton _) fun x hx y hy => ?_
      rw [List.getLast?_cons, ← List.getLastD_eq_getLast?, h.recording] at hx
      obtain rfl := Option.some.inj hx
      obtain rfl := Option.some.inj hy
      exact Ne.symm hne

namespace Tells

variable {c c' : Call} {fs : List Effect}

/-- Nothing is published, and there is nothing to publish. -/
theorem silent (hs : Effect.snapshots fs = []) (hr : Effect.recordings fs = [])
    (hg : c'.gallery = c.gallery) (ha : c'.recorder.active = c.recorder.active) :
    Tells c ⟨c', fs⟩ where
  streams := by
    rw [hs, hg]
    rfl
  recording := by rw [hr, if_pos ha]

/-- The streams are published last. -/
theorem publishStreams (hr : Effect.recordings fs =
    if c'.recorder.active = c.recorder.active then [] else [c'.recorder.active]) :
    Tells c ⟨c', fs ++ [.published (.streams c'.gallery.snapshot)]⟩ where
  streams := by
    rw [Effect.snapshots_append]
    exact List.getLastD_concat
  recording := by
    rw [Effect.recordings_append, hr]
    exact List.append_nil _

/-- The recording begins or ends, and that is published. -/
theorem publishRecording {active : Bool} (hs : Effect.snapshots fs = [])
    (hr : Effect.recordings fs = []) (hg : c'.gallery = c.gallery)
    (ha : c.recorder.active = !active) (ha' : c'.recorder.active = active) :
    Tells c ⟨c', fs ++ [.published (.recording active)]⟩ where
  streams := by
    rw [Effect.snapshots_append, hs, hg]
    rfl
  recording := by
    rw [Effect.recordings_append, hr, ha, ha', if_neg (by simp)]
    rfl

end Tells

variable {c : Call} {o : Outcome Call}

/-- Every move publishes what it changes. -/
theorem tells_move (h : Move c o) : Tells c o := by
  have haside : ∀ {fs : List Effect}, (∀ e ∈ fs, e.Within Effect.Part.asides) →
      Effect.snapshots fs = [] ∧ Effect.recordings fs = [] := fun hfs =>
    ⟨Effect.snapshots_eq_nil hfs (by decide), Effect.recordings_eq_nil hfs (by decide)⟩
  cases h with
  | pass h hfs => exact .silent (haside hfs).1 (haside hfs).2 h.gallery h.active
  | connect _ _ _ => exact .silent rfl rfl rfl rfl
  | phase _ _ hfs => exact .silent (haside hfs).1 (haside hfs).2 rfl rfl
  | tearDown _ hfs _ =>
    have hr := Effect.recordings_eq_nil hfs (by decide)
    refine .publishStreams ?_
    rw [if_pos rfl]
    exact hr
  | change _ h _ hfs _ =>
    refine .publishStreams ?_
    rw [if_pos h.active]
    exact Effect.recordings_eq_nil hfs (by decide)
  | record hnone hr _ _ _ hfs =>
    exact .publishRecording (haside hfs).1 (haside hfs).2 rfl (congrArg Option.isSome hnone)
      (congrArg Option.isSome hr)
  | stop hs hr _ hfs =>
    exact .publishRecording (haside hfs).1 (haside hfs).2 rfl (congrArg Option.isSome hs)
      (congrArg Option.isSome hr)
  | @release c' es _ _ _ hsession _ _ _ _ hr _ =>
    have hafter : c'.recorder.active = false := congrArg Option.isSome hsession
    refine .publishStreams ?_
    rw [hr, hafter]
    cases c.recorder.active <;> rfl

theorem told_fresh (s : Settings) (room : RoomId) (user : UserId) (urls : UrlSource) :
    Told (fresh s room user urls .none) [] :=
  ⟨rfl, rfl, .singleton _⟩

/-- The latest words on streams and recording are true in every history, once an input was dealt
with. -/
theorem told_run (s : Settings) (room : RoomId) (user : UserId) (urls : UrlSource)
    (moments : List Moment) :
    Told ((fresh s room user urls .none).run moments).value
      ((fresh s room user urls .none).run moments).effects :=
  Leads.forEach (fun c m => (c.moves_meet m).leads fun _ _ h _ hes => hes.append (tells_move h))
    moments _ [] (told_fresh s room user urls)

end VideoCall.Call

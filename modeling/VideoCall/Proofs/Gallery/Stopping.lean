import VideoCall.Gallery.History
import VideoCall.Proofs.Effect

/-!
# Which tracks a gallery stops

A captured stream that comes takes the place of the one of its type, whose tracks are told to stop.
What stops is the handle, wherever it is: a track of the new stream stops as well if its handle is
in the old stream, be it that a track was taken over or that the old stream is installed once more.
All other tracks go on.

## Main definitions

* `Gallery.capturedTracks` : the tracks of the captured stream of a type.
* `Gallery.Installs` : all that becomes of the tracks when a captured stream comes.

## Main results

* `Effect.stopped_noteAll`, `Effect.contains_stopped_noteAll_iff` : the handles that are stopped
  after some effects.
* `Gallery.stops_removeLocal`, `Gallery.stops_addLocal` : the tracks that are told to stop when a
  captured stream goes, and when one comes.
* `Gallery.installs_addLocal` : a track of a new stream is stopped if its handle is in the old one,
  and only then.
-/

namespace VideoCall

open Media Outcome

/-! ### Handles -/

namespace Effect

theorem stops_map_stopped (ts : List Track) : stops (ts.map .stopped) = ts := by
  unfold stops
  rw [List.filterMap_map]
  exact List.filterMap_some

/-- Effects stop the tracks that they tell to stop. -/
theorem stopped_noteAll (es : List Effect) (f : Footprint) :
    (f.noteAll es).stopped = (stops es).foldl Stopped.stop f.stopped := by
  induction es generalizing f with
  | nil => rfl
  | cons e es ih =>
    refine (ih (f.note e)).trans ?_
    cases e <;> rfl

/-- A handle is stopped after some effects if it was stopped before, or a track with the handle was
told to stop. -/
theorem contains_stopped_noteAll_iff {es : List Effect} {f : Footprint} {t : Track} :
    (f.noteAll es).stopped.contains t ↔
      f.stopped.contains t ∨ ∃ t' ∈ stops es, t'.handle = t.handle := by
  rw [stopped_noteAll, Stopped.contains_foldl_stop_iff]

/-- A handle that was stopped stays so, and so is one that was told to. -/
theorem contains_stopped_noteAll {es : List Effect} {f : Footprint} {t : Track}
    (h : f.stopped.contains t = true ∨ t ∈ stops es) :
    (f.noteAll es).stopped.contains t = true :=
  contains_stopped_noteAll_iff.2 (h.imp_right fun ht => ⟨t, ht, rfl⟩)

end Effect

namespace Gallery

/-! ### Captured streams -/

theorem stops_revoke (url : Option Url) : Effect.stops (revoke url).effects = [] := by
  cases url <;> rfl

theorem stops_stopAll (m : Stream) : Effect.stops (stopAll m).effects = m.tracks :=
  Effect.stops_map_stopped m.tracks

theorem stops_releaseLocal (m : LocalStream) :
    Effect.stops (releaseLocal m).effects = m.stream.tracks := by
  unfold releaseLocal
  rw [effects_bind, Effect.stops_append, stops_stopAll, stops_revoke, List.append_nil]

theorem stops_tell (recording : Bool) (e : LegEvent) :
    Effect.stops (tell recording e).effects = [] := by
  cases recording <;> rfl

variable (g : Gallery) (recording : Bool) (type : StreamType)

/-- The tracks of the captured stream of a type. -/
def capturedTracks : List Track := ((g.locals.get? type).map fun m => m.stream.tracks).getD []

theorem stops_removeLocal :
    Effect.stops (g.removeLocal recording type).effects = g.capturedTracks type := by
  unfold removeLocal capturedTracks
  cases g.locals.get? type with
  | none => rfl
  | some m =>
    simp [Effect.stops_append, stops_tell, stops_releaseLocal]

theorem stops_addLocal (stream : Stream) :
    Effect.stops (g.addLocal recording type stream).effects = g.capturedTracks type := by
  have hurl : ∀ e es, Effect.stops (.url e :: es) = Effect.stops es := fun _ _ => rfl
  unfold addLocal
  simp [Effect.stops_append, stops_removeLocal, stops_tell, hurl]

/-- All that becomes of the tracks when a captured stream comes. -/
structure Installs (g : Gallery) (type : StreamType) (stream : Stream) (f : Footprint)
    (o : Outcome (Gallery × LocalStream)) : Prop where
  /-- The stream is the captured one of its type. -/
  installed : o.value.1.locals.get? type = some o.value.2 ∧ o.value.2.stream = stream
  /-- A track of the stream is stopped if its handle is in the stream that was there, and only
  then. -/
  own : ∀ t ∈ stream.tracks, (f.noteAll o.effects).stopped.contains t ↔
    ∃ t' ∈ g.capturedTracks type, t'.handle = t.handle
  /-- The tracks of the stream that was there are stopped. -/
  replaced : ∀ t ∈ g.capturedTracks type, (f.noteAll o.effects).stopped.contains t
  /-- All other handles are stopped only if they were before. -/
  others : ∀ t, (∀ t' ∈ g.capturedTracks type, t'.handle ≠ t.handle) →
    (f.noteAll o.effects).stopped.contains t = f.stopped.contains t

/-- A stream whose tracks all go on may be installed at any time. All tracks of the stream of its
type are stopped then, and of its own exactly those with a handle of that stream. -/
theorem installs_addLocal (stream : Stream) (f : Footprint)
    (hlive : ∀ t ∈ stream.tracks, f.stopped.contains t = false) :
    g.Installs type stream f (g.addLocal recording type stream) := by
  have hstopped : ∀ t, (f.noteAll (g.addLocal recording type stream).effects).stopped.contains t ↔
      f.stopped.contains t ∨ ∃ t' ∈ g.capturedTracks type, t'.handle = t.handle := by
    intro t
    rw [Effect.contains_stopped_noteAll_iff, stops_addLocal]
  refine ⟨⟨?_, rfl⟩, fun t ht => ?_, fun t ht => ?_, fun t ht => ?_⟩
  · simp [addLocal]
  · rw [hstopped, hlive t ht]
    exact or_iff_right Bool.false_ne_true
  · exact (hstopped t).2 (.inr ⟨t, ht, rfl⟩)
  · rw [Bool.eq_iff_iff, hstopped]
    refine or_iff_left ?_
    rintro ⟨t', ht', he⟩
    exact ht t' ht' he

/-- Another handle on the picture goes on when it takes the place of the first one. -/
theorem installs_other_handle :
    let picture (handle : Nat) : Track := ⟨handle, ⟨"picture"⟩, .video, "front"⟩
    let o := (empty (.fresh fun _ _ => false)).run
      [.addLocal false .camera ⟨⟨"camera"⟩, [picture 0]⟩]
    let o' := o.value.addLocal false .camera ⟨⟨"camera"⟩, [picture 1]⟩
    let stopped := ((Footprint.none.noteAll o.effects).noteAll o'.effects).stopped
    stopped.contains (picture 1) = false ∧ stopped.contains (picture 0) := by
  intro picture o o' stopped
  have h := installs_addLocal o.value false .camera ⟨⟨"camera"⟩, [picture 1]⟩
    (Footprint.none.noteAll o.effects) (by decide)
  refine ⟨?_, h.replaced _ (by decide)⟩
  rw [← Bool.not_eq_true]
  exact fun hstopped => absurd ((h.own _ List.mem_cons_self).1 hstopped) (by decide)

/-- A picture that is taken over into a new stream stops with the old one. -/
theorem install_stops_shared_handle :
    let picture : Track := ⟨0, ⟨"picture"⟩, .video, "front"⟩
    let o := (empty (.fresh fun _ _ => false)).run
      [.addLocal false .camera ⟨⟨"camera"⟩, [picture, ⟨1, ⟨"voice"⟩, .audio, ""⟩]⟩]
    let stream : Stream := ⟨⟨"camera"⟩, [picture, ⟨2, ⟨"voice"⟩, .audio, ""⟩]⟩
    let f := Footprint.none.noteAll o.effects
    (∀ t ∈ stream.tracks, f.stopped.contains t = false) ∧ picture ∈ stream.tracks ∧
      (f.noteAll (o.value.addLocal false .camera stream).effects).stopped.contains picture := by
  decide

end Gallery

end VideoCall

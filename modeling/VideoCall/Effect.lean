import VideoCall.Call.Notice
import VideoCall.Metric
import VideoCall.Wire.Outgoing

/-!
# Effects

What a call does to the world around it is data: a list of effects in the order in which they
happen. A step of any part of the call has an outcome, which is a value together with the effects on
the way to it.

## Main definitions

* `Effect` : one thing done to the world.
* `Effect.urls`, `Effect.lines`, `Effect.messages`, … : the effects of one kind in a list.
* `Outcome` : a value and the effects on the way to it; outcomes are chained in order.
* `Outcome.emit` : the outcome that is one effect.
* `Footprint` : what effects leave behind: the tracks stopped, the URLs in use, and the metrics.
-/

namespace VideoCall

open Media Wire

/-- An entry that was expected and not found. -/
inductive Missing
  /-- The slot of an indexed track. -/
  | slot (track : TrackId)
  /-- The participant to whom a track is attributed. -/
  | user (a : Attribution)
  /-- The stream to which a track is attributed. -/
  | stream (a : Attribution)
  /-- The track in the stream to which it is attributed. -/
  | track (a : Attribution) (track : TrackId)
  deriving DecidableEq

/-- One thing done to the world. -/
inductive Effect
  | url (e : UrlEvent)
  /-- A track was told to stop. -/
  | stopped (t : Track)
  /-- A stream captured here came to the recording, or left it. -/
  | leg (e : LegEvent)
  | measured (m : Measurement)
  /-- Dealings with the media stack. -/
  | line (e : Peer.LineEvent)
  /-- The recording service was asked to join a session. -/
  | joinRequested (session : Nat) (r : Recorder.JoinRequest)
  /-- A message went out to the relay. -/
  | sent (m : Envelope)
  | published (n : Notice)
  /-- The intent of the given number was answered. -/
  | answered (ticket : Nat) (a : Answer)
  /-- A record was not in order. -/
  | missed (m : Missing)

namespace Effect

/-! ### Views of a list of effects -/

/-- What happened to URLs. -/
def urls (es : List Effect) : List UrlEvent := es.filterMap fun | .url e => some e | _ => none

/-- The tracks told to stop. -/
def stops (es : List Effect) : List Track := es.filterMap fun | .stopped t => some t | _ => none

/-- The dealings with the media stack. -/
def lines (es : List Effect) : List Peer.LineEvent :=
  es.filterMap fun | .line e => some e | _ => none

/-- The connections that were opened, with where they lead. -/
def opened (es : List Effect) : List (Nat × Peer.Key) :=
  (lines es).filterMap fun | .opened n key _ => some (n, key) | _ => none

/-- The connections that were destroyed, by their numbers. -/
def destroyed (es : List Effect) : List Nat :=
  (lines es).filterMap fun | .destroyed n => some n | _ => none

/-- The requests to the recording service, with the numbers of their sessions. -/
def joins (es : List Effect) : List (Nat × Recorder.JoinRequest) :=
  es.filterMap fun | .joinRequested n r => some (n, r) | _ => none

/-- The messages to the relay. -/
def messages (es : List Effect) : List Envelope := es.filterMap fun | .sent m => some m | _ => none

/-- The notices that were published. -/
def notices (es : List Effect) : List Notice :=
  es.filterMap fun | .published n => some n | _ => none

/-- The answers, with the numbers of the intents. -/
def answers (es : List Effect) : List (Nat × Answer) :=
  es.filterMap fun | .answered n a => some (n, a) | _ => none

variable (es fs : List Effect)

@[simp]
theorem urls_append : urls (es ++ fs) = urls es ++ urls fs := List.filterMap_append

@[simp]
theorem lines_append : lines (es ++ fs) = lines es ++ lines fs := List.filterMap_append

@[simp]
theorem opened_append : opened (es ++ fs) = opened es ++ opened fs := by
  simp [opened]

@[simp]
theorem destroyed_append : destroyed (es ++ fs) = destroyed es ++ destroyed fs := by
  simp [destroyed]

@[simp]
theorem messages_append : messages (es ++ fs) = messages es ++ messages fs := List.filterMap_append

end Effect

/-- What effects leave behind. -/
structure Footprint where
  stopped : Stopped
  urls : UrlLedger
  readings : Readings

namespace Footprint

/-- Nothing was done yet. -/
def none : Footprint := ⟨.none, .empty, ∅⟩

/-- What is left behind after one more effect. -/
def note (f : Footprint) : Effect → Footprint
  | .url e => { f with urls := f.urls.note e }
  | .stopped t => { f with stopped := f.stopped.stop t }
  | .measured m => { f with readings := f.readings.note m }
  | _ => f

/-- What is left behind after more effects, in order. -/
def noteAll (f : Footprint) (es : List Effect) : Footprint := es.foldl note f

/-- What the recording is told of the captured streams by further effects, and which handles are
stopped by then. -/
def legs (f : Footprint) : List Effect → List (LegEvent × Stopped)
  | [] => []
  | .leg e :: es => (e, f.stopped) :: f.legs es
  | e :: es => (f.note e).legs es

end Footprint

/-- A value and the effects on the way to it, first the first one. -/
structure Outcome (α : Type) where
  value : α
  effects : List Effect

namespace Outcome

variable {α β : Type}

instance : Monad Outcome where
  pure a := ⟨a, []⟩
  bind o f := ⟨(f o.value).value, o.effects ++ (f o.value).effects⟩

/-- The outcome that is one effect. -/
def emit (e : Effect) : Outcome Unit := ⟨(), [e]⟩

/-- The outcome that is several effects, in order. -/
def emitAll (es : List Effect) : Outcome Unit := ⟨(), es⟩

@[simp]
theorem value_pure (a : α) : (pure a : Outcome α).value = a := rfl

@[simp]
theorem effects_pure (a : α) : (pure a : Outcome α).effects = [] := rfl

@[simp]
theorem value_bind (o : Outcome α) (f : α → Outcome β) : (o >>= f).value = (f o.value).value := rfl

@[simp]
theorem effects_bind (o : Outcome α) (f : α → Outcome β) :
    (o >>= f).effects = o.effects ++ (f o.value).effects := rfl

@[simp]
theorem value_map (g : α → β) (o : Outcome α) : (g <$> o).value = g o.value := rfl

@[simp]
theorem effects_map (g : α → β) (o : Outcome α) : (g <$> o).effects = o.effects := by
  change o.effects ++ [] = o.effects
  exact List.append_nil _

/-- A step that is taken on a condition. -/
def when (b : Bool) (o : Outcome Unit) : Outcome Unit := if b then o else pure ()

/-- A step that is taken for the value that is there, if there is one. -/
def forSome (a : Option α) (step : α → Outcome Unit) : Outcome Unit :=
  match a with
  | some a => step a
  | none => pure ()

@[simp]
theorem effects_when (b : Bool) (o : Outcome Unit) :
    (when b o).effects = if b then o.effects else [] := by
  cases b <;> rfl

@[simp]
theorem effects_forSome_none (step : α → Outcome Unit) : (forSome none step).effects = [] := rfl

@[simp]
theorem effects_forSome_some (a : α) (step : α → Outcome Unit) :
    (forSome (some a) step).effects = (step a).effects := rfl

@[simp]
theorem effects_emit (e : Effect) : (emit e).effects = [e] := rfl

@[simp]
theorem effects_emitAll (es : List Effect) : (emitAll es).effects = es := rfl

/-- Counts one event. -/
def count (c : Counter) : Outcome Unit := emit (.measured (.count c))

/-- Sets a gauge. -/
def gauge (g : Gauge) (n : Nat) : Outcome Unit := emit (.measured (.set g n))

/-- Runs a step for every item in order, from one state to the next. -/
def forEach {σ ι : Type} (step : σ → ι → Outcome σ) : List ι → σ → Outcome σ
  | [], s => pure s
  | i :: is, s => step s i >>= forEach step is

@[simp]
theorem forEach_nil {σ ι : Type} (step : σ → ι → Outcome σ) (s : σ) :
    forEach step [] s = pure s := rfl

@[simp]
theorem forEach_cons {σ ι : Type} (step : σ → ι → Outcome σ) (i : ι) (is : List ι) (s : σ) :
    forEach step (i :: is) s = step s i >>= forEach step is := rfl

theorem value_forEach_append {σ ι : Type} (step : σ → ι → Outcome σ) (is js : List ι) (s : σ) :
    (forEach step (is ++ js) s).value = (forEach step js (forEach step is s).value).value := by
  induction is generalizing s with
  | nil => rfl
  | cons i is ih => exact ih (step s i).value

theorem effects_forEach_append {σ ι : Type} (step : σ → ι → Outcome σ) (is js : List ι) (s : σ) :
    (forEach step (is ++ js) s).effects =
      (forEach step is s).effects ++ (forEach step js (forEach step is s).value).effects := by
  induction is generalizing s with
  | nil => rfl
  | cons i is ih =>
    rw [List.cons_append, forEach_cons, effects_bind, ih, ← List.append_assoc]
    rfl

/-- What every step keeps, a run keeps. -/
theorem forEach_induction {σ ι : Type} {step : σ → ι → Outcome σ} {p : σ → Prop} {is : List ι}
    {s : σ}
    (hs : p s) (h : ∀ s, p s → ∀ i ∈ is, p (step s i).value) : p (forEach step is s).value := by
  induction is generalizing s with
  | nil => exact hs
  | cons i is ih =>
    exact ih (h s hs i List.mem_cons_self) fun s hs j hj => h s hs j (List.mem_cons_of_mem _ hj)

end Outcome

end VideoCall

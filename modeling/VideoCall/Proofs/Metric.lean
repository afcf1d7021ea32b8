import Mathlib.Algebra.GroupWithZero.Nat
import Mathlib.Data.List.Nodup
import VideoCall.Effect

/-!
# What the metrics say

A metric is read under its name. The names of counters and gauges all differ, so each counter reads
how often it was counted, and each gauge what it was set to last.

## Main definitions

* `Readings.total`, `Readings.level` : the reading of a counter, and of a gauge.
* `Effect.counts`, `Effect.settings` : what was counted, and what a gauge was set to.
* `Metric`, `Effect.Touches` : an effect touches no metrics but the given ones.

## Main results

* `Footprint.total_noteAll` : effects raise each counter by how often they count it.
* `Footprint.level_noteAll` : effects leave each gauge at what they set it to last.
* `Effect.sum_count_peersClosed` : the reasons for which connections were closed, all together.
-/

namespace VideoCall

/-! ### Names -/

namespace Counter

/-- All counters. -/
def all : List Counter :=
  [.peersCreated, .peersClosed .hangUp, .peersClosed .error, .peersClosed .remoteClose,
    .signalsDropped .unknownPeer, .signalsDropped .notJoined, .signalsDropped .unknownEvent,
    .signalsDropped .undecodable, .tracksWithdrawn, .dials .joined, .dials .timeout,
    .dials .superseded]

theorem mem_all (c : Counter) : c ∈ all := by
  rcases c with _ | (_ | _ | _) | (_ | _ | _ | _) | _ | (_ | _ | _) <;> decide

theorem name_injective : Function.Injective name := fun c d h =>
  List.inj_on_of_nodup_map (l := all) (by decide) c.mem_all d.mem_all h

end Counter

theorem Gauge.name_injective : Function.Injective name := fun g h => by
  cases g <;> cases h <;> decide

theorem Gauge.name_ne (g : Gauge) (c : Counter) : g.name ≠ c.name := by
  have hnames : ∀ c ∈ Counter.all, g.name ≠ c.name := by cases g <;> decide
  exact hnames c c.mem_all

/-! ### Counters -/

/-- The reading of a counter: zero if it was not touched. -/
def Readings.total (r : Readings) (c : Counter) : Nat := (r.get? c.name).getD 0

/-- What was counted. -/
def Effect.counts (es : List Effect) : List Counter :=
  es.filterMap fun | .measured (.count c) => some c | _ => none

@[simp]
theorem Effect.counts_append (es fs : List Effect) : counts (es ++ fs) = counts es ++ counts fs :=
  List.filterMap_append

/-- A measurement raises the counter that it counts, and no other. -/
theorem Readings.total_note (r : Readings) (m : Measurement) (c : Counter) :
    (r.note m).total c = r.total c + if m = .count c then 1 else 0 := by
  unfold total note
  cases m with
  | count d =>
    rw [Table.get?_insert]
    by_cases h : d = c
    · subst h
      simp
    · have hname : compare c.name d.name ≠ .eq := fun heq =>
        h (Counter.name_injective (Std.LawfulEqOrd.eq_of_compare heq)).symm
      rw [if_neg hname, if_neg fun heq => h (Measurement.count.inj heq)]
      rfl
  | set g n =>
    have hname : compare c.name g.name ≠ .eq := fun heq =>
      g.name_ne c (Std.LawfulEqOrd.eq_of_compare heq).symm
    rw [Table.get?_insert, if_neg hname, if_neg Measurement.noConfusion]
    rfl

/-- Effects raise each counter by how often they count it. -/
theorem Footprint.total_noteAll (f : Footprint) (es : List Effect) (c : Counter) :
    (f.noteAll es).readings.total c = f.readings.total c + (Effect.counts es).count c := by
  induction es generalizing f with
  | nil => rfl
  | cons e es ih =>
    refine (ih (f.note e)).trans ?_
    cases e with
    | measured m =>
      change (f.readings.note m).total c + _ = _
      rw [Readings.total_note]
      cases m with
      | count d =>
        change _ = _ + (d :: Effect.counts es).count c
        rw [List.count_cons, Nat.add_assoc, Nat.add_comm (List.count c (Effect.counts es))]
        simp
      | set g n => rfl
    | _ => rfl

/-! ### Gauges -/

/-- What stands last in two lists stands last in the second, unless that one is empty. -/
theorem getLastD_append {α : Type} (l m : List α) (a : α) :
    (l ++ m).getLastD a = m.getLastD (l.getLastD a) := by
  simp only [List.getLastD_eq_getLast?, List.getLast?_append, Option.getD_or]

/-- The reading of a gauge: zero if it was never set. -/
def Readings.level (r : Readings) (g : Gauge) : Nat := (r.get? g.name).getD 0

/-- What a gauge was set to, first the first value. -/
def Effect.settings (g : Gauge) (es : List Effect) : List Nat :=
  es.filterMap fun | .measured (.set h n) => if h = g then some n else none | _ => none

@[simp]
theorem Effect.settings_append (g : Gauge) (es fs : List Effect) :
    settings g (es ++ fs) = settings g es ++ settings g fs :=
  List.filterMap_append

/-- A measurement changes the gauge that it sets, and no other. -/
theorem Readings.level_note (r : Readings) (m : Measurement) (g : Gauge) :
    (r.note m).level g = (Effect.settings g [.measured m]).getLastD (r.level g) := by
  unfold level note
  cases m with
  | count c =>
    have hname : compare g.name c.name ≠ .eq := fun heq =>
      g.name_ne c (Std.LawfulEqOrd.eq_of_compare heq)
    rw [Table.get?_insert, if_neg hname]
    rfl
  | set h n =>
    rw [Table.get?_insert]
    by_cases hg : h = g
    · subst hg
      simp [Effect.settings]
    · have hname : compare g.name h.name ≠ .eq := fun heq =>
        hg (Gauge.name_injective (Std.LawfulEqOrd.eq_of_compare heq)).symm
      simp [Effect.settings, hg, hname]

/-- Effects leave each gauge at what they set it to last. -/
theorem Footprint.level_noteAll (f : Footprint) (es : List Effect) (g : Gauge) :
    (f.noteAll es).readings.level g = (Effect.settings g es).getLastD (f.readings.level g) := by
  induction es generalizing f with
  | nil => rfl
  | cons e es ih =>
    have hone : (f.note e).readings.level g =
        (Effect.settings g [e]).getLastD (f.readings.level g) := by
      cases e with
      | measured m => exact f.readings.level_note m g
      | _ => rfl
    rw [← List.singleton_append, Effect.settings_append, getLastD_append, ← hone]
    exact ih (f.note e)

/-! ### What effects touch -/

/-- A counter or a gauge. -/
inductive Metric
  | counter (c : Counter)
  | gauge (g : Gauge)
  deriving DecidableEq

/-- The metric that a measurement is of. -/
def Measurement.metric : Measurement → Metric
  | count c => .counter c
  | set g _ => .gauge g

namespace Effect

/-- An effect touches no metrics but the given ones. -/
def Touches (ms : List Metric) : Effect → Prop
  | .measured m => m.metric ∈ ms
  | _ => True

theorem Touches.widen {ms ns : List Metric} {e : Effect} (h : e.Touches ms)
    (hms : ∀ m ∈ ms, m ∈ ns) : e.Touches ns := by
  cases e with
  | measured m => exact hms _ h
  | _ => trivial

variable {es : List Effect} {ms : List Metric} (h : ∀ e ∈ es, e.Touches ms)
include h

/-- A gauge that is not touched is not set. -/
theorem settings_eq_nil {g : Gauge} (hg : .gauge g ∉ ms) : settings g es = [] := by
  refine List.filterMap_eq_nil_iff.2 fun e he => ?_
  have htouches := h e he
  cases e with
  | measured m =>
    cases m with
    | count c => rfl
    | set g' n => exact if_neg fun heq : g' = g => hg (heq ▸ htouches)
  | _ => rfl

/-- A counter that is not touched is not raised. -/
theorem count_eq_zero {c : Counter} (hc : .counter c ∉ ms) : (counts es).count c = 0 := by
  refine List.count_eq_zero.2 fun hmem => ?_
  obtain ⟨e, he, hec⟩ := List.mem_filterMap.1 hmem
  have htouches := h e he
  cases e with
  | measured m =>
    cases m with
    | count c' =>
      obtain rfl : c' = c := Option.some.inj hec
      exact hc htouches
    | set g n => cases hec
  | _ => cases hec

end Effect

/-! ### Connections that were closed -/

/-- All reasons for which a connection is closed. -/
def CloseReason.all : List CloseReason := [.hangUp, .error, .remoteClose]

/-- A connection was closed. -/
def Counter.isPeersClosed : Counter → Bool
  | .peersClosed _ => true
  | _ => false

/-- The reasons for which connections were closed, all together. -/
theorem Effect.sum_count_peersClosed (l : List Counter) :
    (CloseReason.all.map fun r => l.count (.peersClosed r)).sum =
      l.countP Counter.isPeersClosed := by
  induction l with
  | nil => rfl
  | cons c l ih =>
    rw [List.countP_cons, ← ih]
    rcases c with _ | (_ | _ | _) | _ | _ | _ <;>
      simp [CloseReason.all, Counter.isPeersClosed] <;> omega

end VideoCall

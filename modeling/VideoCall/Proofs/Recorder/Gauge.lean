import VideoCall.Proofs.Gallery.Gauge
import VideoCall.Proofs.Recorder.Legs

/-!
# How many streams are being recorded

A recorder shows how many streams are being recorded when a session begins or ends, and when a leg
comes or goes. A stream that the connection refuses is no leg and is not shown as one, and one that
goes is no leg any more, whatever the connection says. So the gauge reads the number of legs at the
end of every step, and zero while there is no session.

## Main definitions

* `Recorder.Gauged` : after effects the gauge of legs reads how many there are.

## Main results

* `Recorder.gauged_start`, `Recorder.gauged_stop`, `Recorder.gauged_report` : so it does when a
  session begins or ends, and after every report of the connection.
* `Recorder.gauged_follow` : so it does when captured streams come and go.
-/

namespace VideoCall.Recorder

open Outcome Peer Wire Media
open Effect (Touches)

theorem length_legs (r : Recorder) : r.legs.length = r.session.elim 0 fun s => s.legs.size := by
  unfold legs
  cases r.session with
  | none => rfl
  | some s => exact List.length_map _

/-- Effects touch no metric but the gauge of legs. If it read `n` before them, it reads how many
legs there are after them. -/
structure Gauged (n : Nat) (es : List Effect) (r : Recorder) : Prop where
  touches : ∀ e ∈ es, e.Touches [.gauge .recordingLegs]
  level : (Effect.settings .recordingLegs es).getLastD n = r.legs.length

namespace Gauged

variable {r r' : Recorder} {n : Nat} {es fs : List Effect}

/-- The gauge is not set, and the legs stay. -/
theorem stay (h : ∀ e ∈ es, e.Touches []) (hlegs : r'.legs = r.legs) :
    Gauged r.legs.length es r' where
  touches e he := (h e he).widen fun _ => List.mem_cons_of_mem _
  level := by
    rw [Effect.settings_eq_nil h List.not_mem_nil, hlegs]
    rfl

/-- After dealings with the connection the number of legs is shown. -/
theorem shown (l : LineEvent) {s : Session} (hs : r.session = some s) (n : Nat) :
    Gauged n [.line l, .measured (.set .recordingLegs s.legs.size)] r where
  touches := List.forall_mem_cons.2
    ⟨trivial, List.forall_mem_singleton.2 (List.mem_singleton_self _)⟩
  level := by
    rw [length_legs, hs]
    rfl

theorem append (h : Gauged n es r) (h' : Gauged r.legs.length fs r') : Gauged n (es ++ fs) r' where
  touches := List.forall_mem_append.2 ⟨h.touches, h'.touches⟩
  level := by rw [Effect.settings_append, getLastD_append, h.level, h'.level]

end Gauged

variable (r : Recorder) (b : Switchboard)

/-! ### Sessions -/

/-- A session that begins shows its legs. -/
theorem gauged_start (room : RoomId) (user : UserId) (url : Option String)
    (captured : List LocalStream) :
    Gauged r.legs.length (r.start b room user url captured).effects
      (r.start b room user url captured).value.1 := by
  rcases r.start_cases b room user url captured with ⟨es, hstart, hes⟩ | ⟨s, _, _, _, _, hstart⟩
  · rw [hstart]
    refine .stay (fun e he => ?_) rfl
    obtain ⟨options, rfl⟩ := hes e he
    trivial
  · rw [hstart]
    exact .shown _ rfl _

/-- A session that ends leaves no legs, and shows none. -/
theorem gauged_stop : Gauged r.legs.length r.stop.effects r.stop.value.1 := by
  unfold stop
  split
  · exact .stay (Emits.pure _) rfl
  · exact ⟨List.forall_mem_cons.2
      ⟨trivial, List.forall_mem_singleton.2 (List.mem_singleton_self _)⟩, rfl⟩

theorem gauged_offer (s : Signal) :
    Gauged r.legs.length (r.offer s).effects (r.offer s).value := by
  unfold offer
  split
  · exact .stay (Emits.pure _) rfl
  · rename_i x hx
    split
    · exact .stay (Emits.pure _) rfl
    · refine .stay (Emits.bind (.emit trivial) (.pure _)) ?_
      rw [legs, legs, hx]
      rfl

/-- A report of the connection ends the session, or leaves the legs as they are. -/
theorem gauged_report (x : Report) :
    Gauged r.legs.length (r.report x).effects (r.report x).value := by
  have hstop : Gauged r.legs.length ((·.1) <$> r.stop).effects ((·.1) <$> r.stop).value := by
    rw [effects_map]
    exact r.gauged_stop
  cases x with
  | signal s => exact r.gauged_offer s
  | failed e => exact hstop
  | closed => exact hstop
  | _ => exact .stay (Emits.pure _) rfl

/-! ### Legs -/

/-- A leg that comes is shown, and a stream that the connection refuses is not. -/
theorem gauged_addLeg (m : LocalStream) :
    Gauged r.legs.length (r.addLeg b m).effects (r.addLeg b m).value := by
  cases hs : r.session with
  | none =>
    rw [addLeg_of_none b m hs]
    exact .stay (Emits.pure _) rfl
  | some s =>
    by_cases hm : m.stream.id ∈ r.legs
    · rw [addLeg_of_mem b m hm]
      exact .stay (Emits.pure _) rfl
    · cases htaken : b.refusals.addStream .recording with
      | true =>
        rw [addLeg_of_refused m hs hm htaken]
        exact .stay (List.forall_mem_singleton.2 trivial) rfl
      | false =>
        rw [addLeg_of_taken m hs hm htaken]
        exact .shown (s := { s with legs := s.legs.insert m.stream.id m.stream }) _ rfl _

/-- A leg that goes is not shown any more, whatever the connection says. -/
theorem gauged_removeLeg (m : LocalStream) :
    Gauged r.legs.length (r.removeLeg b m).effects (r.removeLeg b m).value := by
  by_cases hm : m.stream.id ∈ r.legs
  · obtain ⟨s, hs, hc⟩ := mem_legs_iff.1 hm
    obtain ⟨leg, hleg⟩ := Option.isSome_iff_exists.1 hc
    rw [removeLeg_of_get? b m hs hleg]
    exact .shown (s := { s with legs := s.legs.erase m.stream.id }) _ rfl _
  · rw [removeLeg_of_not_mem b m hm]
    exact .stay (Emits.pure _) rfl

theorem gauged_followOne {e : Effect} (he : e.OfCaptures) :
    Gauged r.legs.length (r.followOne b e).effects (r.followOne b e).value := by
  unfold followOne
  split
  · exact r.gauged_addLeg b _
  · exact r.gauged_removeLeg b _
  · exact .stay (Emits.bind (.emit (Effect.OfCaptures.touches he _)) (.pure _)) rfl

/-- A recorder that follows captured streams shows how many legs there are. -/
theorem gauged_follow {α : Type} {o : Outcome α} (h : Emits Effect.OfCaptures o) :
    Gauged r.legs.length (r.follow b o).effects (r.follow b o).value.1 := by
  have hall (es : List Effect) (hes : ∀ e ∈ es, e.OfCaptures) (r : Recorder) :
      Gauged r.legs.length (forEach (followOne b) es r).effects
        (forEach (followOne b) es r).value := by
    induction es generalizing r with
    | nil => exact .stay (Emits.pure _) rfl
    | cons e es ih =>
      exact (r.gauged_followOne b (hes e List.mem_cons_self)).append
        (ih (fun e' he' => hes e' (List.mem_cons_of_mem _ he')) _)
  rw [follow_eq]
  exact hall o.effects h r

end VideoCall.Recorder

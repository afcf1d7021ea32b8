import VideoCall.Proofs.Effect
import VideoCall.Proofs.Gallery.Effects
import VideoCall.Recorder.Session

/-!
# What a recorder does to the world

A recorder has dealings with its connection, asks the recording service to join, and shows how many
streams it records. It follows the gallery by dealings with its connection, and lets all else that
the gallery does pass.

## Main definitions

* `Effect.recordingLines` : the connections that were opened to the recording service.

## Main results

* `Recorder.start_cases`, `Recorder.emits_start` : all that comes of a wish to record.
* `Recorder.within_addLeg`, `Recorder.within_offer`, … : what each step bears on.
* `Recorder.within_follow`, `Recorder.urls_follow` : what a recorder bears on that follows.
* `Recorder.addLeg_keeps`, `Recorder.removeLeg_keeps`, `Recorder.follow_keeps` : captured streams
  matter to nothing but the legs.
-/

namespace VideoCall

open Outcome Peer Wire Media
open Effect (Within)

theorem Effect.OfGallery.within {e : Effect} (h : e.OfGallery) : e.Within [.gallery, .metrics] := by
  cases e with
  | measured _ => exact List.mem_of_mem_tail (List.mem_singleton_self _)
  | line _ => exact h.elim
  | joinRequested _ _ => exact h.elim
  | sent _ => exact h.elim
  | published _ => exact h.elim
  | answered _ _ => exact h.elim
  | _ => exact List.mem_cons_self

/-- A change of a gallery bears on the gallery and on nothing else, but for metrics. -/
theorem Gallery.within_apply (g : Gallery) (change : Change) :
    Emits (Within [.gallery, .metrics]) (g.apply change) :=
  (g.emits_apply change).mono fun _ => Effect.OfGallery.within

/-! ### Connections -/

/-- The connections that were opened to the recording service, in order. -/
def Effect.recordingLines (es : List Effect) : List Nat :=
  (Effect.opened es).filterMap fun | (n, .recording) => some n | _ => none

@[simp]
theorem Effect.recordingLines_append (es fs : List Effect) :
    recordingLines (es ++ fs) = recordingLines es ++ recordingLines fs := by
  rw [recordingLines, Effect.opened_append, List.filterMap_append]
  rfl

theorem Effect.recordingLines_append_eq {fs : List Effect} (h : Effect.opened fs = [])
    (es : List Effect) : recordingLines (es ++ fs) = recordingLines es := by
  rw [recordingLines_append, recordingLines, recordingLines, h]
  exact List.append_nil _

namespace Peer.Switchboard

theorem within_tell (b : Switchboard) (key : Key) (line : Nat) (command : Command) :
    Emits (Within [.command]) (b.tell key line command) :=
  .bind (.emit (List.mem_singleton_self _)) (.pure _)

theorem within_destroy (line : Nat) : Emits (Within [.destruction]) (destroy line) :=
  .emit (List.mem_singleton_self _)

theorem within_refused (key : Key) (options : Options) :
    Emits (Within [.command]) (emit (.line (.refused key options))) :=
  .emit (List.mem_singleton_self _)

end Peer.Switchboard

namespace Recorder

/-! ### Sessions -/

/-- A recorder that is to start does nothing but note a refusal, or begins the next session with the
next connection. -/
theorem start_cases (r : Recorder) (b : Switchboard) (room : RoomId) (user : UserId)
    (url : Option String) (captured : List LocalStream) :
    (∃ es, r.start b room user url captured = ⟨(r, b, false), es⟩ ∧
      ∀ e ∈ es, ∃ options, e = .line (.refused .recording options)) ∨
    ∃ (s : Session) (options : Options), r.session = none ∧
      s.numbers = (r.started + 1, b.opened) ∧ s.offered = false ∧
      r.start b room user url captured =
        ⟨({ r with session := some s, started := r.started + 1 },
          { b with opened := b.opened + 1 }, true),
          [.line (.opened b.opened .recording options),
            .measured (.set .recordingLegs s.legs.size)]⟩ := by
  unfold start Switchboard.dial
  split
  · exact Or.inl ⟨[], rfl, fun _ he => absurd he List.not_mem_nil⟩
  · rename_i hnone
    dsimp only
    split
    · exact Or.inl ⟨_, rfl, fun _ he => ⟨_, List.mem_singleton.1 he⟩⟩
    · exact Or.inr ⟨_, _, hnone, rfl, rfl, rfl⟩

/-- What a start emits: a refusal, or a connection and the legs that it has. -/
theorem emits_start {p : Effect → Prop} (r : Recorder) {b : Switchboard}
    (hrefused : ∀ options, p (.line (.refused .recording options)))
    (hopened : ∀ options, p (.line (.opened b.opened .recording options)))
    (hlegs : ∀ n, p (.measured (.set .recordingLegs n))) (room : RoomId) (user : UserId)
    (url : Option String) (captured : List LocalStream) :
    Emits p (r.start b room user url captured) := by
  rcases r.start_cases b room user url captured with ⟨es, hstart, hes⟩ | ⟨s, _, _, _, _, hstart⟩
  · rw [hstart]
    intro e he
    obtain ⟨options, rfl⟩ := hes e he
    exact hrefused options
  · rw [hstart]
    exact List.forall_mem_cons.2 ⟨hopened _, List.forall_mem_singleton.2 (hlegs _)⟩

theorem within_start (r : Recorder) (b : Switchboard) (room : RoomId) (user : UserId)
    (url : Option String) (captured : List LocalStream) :
    Emits (Within [.opening, .command, .metrics]) (r.start b room user url captured) :=
  r.emits_start (p := Within [.opening, .command, .metrics])
    (fun _ => List.mem_cons_of_mem _ List.mem_cons_self) (fun _ => List.mem_cons_self)
    (fun _ => List.mem_cons_of_mem _ (List.mem_cons_of_mem _ List.mem_cons_self)) _ _ _ _

theorem within_offer (r : Recorder) (s : Signal) : Emits (Within [.join]) (r.offer s) := by
  unfold offer
  repeat' split
  · exact .pure _
  · exact .pure _
  · exact .bind (.emit (List.mem_singleton_self _)) (.pure _)

/-- An envelope for the service neither begins nor ends a session. -/
theorem active_offer (r : Recorder) (s : Signal) : (r.offer s).value.active = r.active := by
  unfold offer
  split
  · rfl
  · rename_i hs
    split
    · rfl
    · change true = r.session.isSome
      rw [hs]
      rfl

theorem within_stop (r : Recorder) : Emits (Within [.destruction, .metrics]) r.stop := by
  unfold stop
  split
  · exact .pure _
  · exact (Switchboard.within_destroy _).also (.bind (within_gauge _ _) (.pure _))

theorem within_reply (r : Recorder) (b : Switchboard) (session : Nat)
    (result : Except JoinError Signal) :
    Emits (Within [.command]) (r.reply b session result) := by
  unfold reply
  repeat' split
  · exact .pure _
  · exact .pure _
  · exact .bind (Switchboard.within_tell _ _ _ _) (.pure _)
  · exact .pure _

/-! ### Legs -/

variable {α : Type} {o : Outcome α}

theorem within_showLegs (s : Session) : Emits (Within [.metrics]) (showLegs s) :=
  within_gauge _ _

theorem within_addLeg (r : Recorder) (b : Switchboard) (m : LocalStream) :
    Emits (Within [.command, .metrics]) (r.addLeg b m) := by
  unfold addLeg
  repeat' split
  · exact .pure _
  · exact .pure _
  · refine (Switchboard.within_tell _ _ _ _).also ?_
    split
    · exact .bind (within_showLegs _) (.pure _)
    · exact .pure _

theorem within_removeLeg (r : Recorder) (b : Switchboard) (m : LocalStream) :
    Emits (Within [.command, .metrics]) (r.removeLeg b m) := by
  unfold removeLeg
  repeat' split
  · exact .pure _
  · exact .pure _
  · exact (Switchboard.within_tell _ _ _ _).also (.bind (within_showLegs _) (.pure _))

/-- A recorder that follows a gallery adds to it only dealings with its connection. -/
theorem within_follow (r : Recorder) (b : Switchboard) (h : Emits Effect.OfGallery o) :
    Emits (Within [.gallery, .metrics, .command]) (r.follow b o) := by
  refine .bind (.forEach (fun r e he => ?_) _) (.pure _)
  unfold followOne
  split
  · exact (within_addLeg r b _).widen (by decide)
  · exact (within_removeLeg r b _).widen (by decide)
  · have hone : Emits (Within [.gallery, .metrics]) (emit e) := .emit (h e he).within
    exact (hone.widen (by decide)).bind (.pure _)

/-- A recorder that follows a gallery makes and releases no URL of its own. -/
theorem urls_follow (r : Recorder) (b : Switchboard) (o : Outcome α) :
    Effect.urls (r.follow b o).effects = Effect.urls o.effects := by
  have hone : ∀ (r : Recorder) (e : Effect),
      Effect.urls (r.followOne b e).effects = Effect.urls [e] := by
    intro r e
    unfold followOne
    split
    · exact Effect.urls_eq_nil (within_addLeg r b _) (by decide)
    · exact Effect.urls_eq_nil (within_removeLeg r b _) (by decide)
    · rfl
  have hall : ∀ (es : List Effect) (r : Recorder),
      Effect.urls (forEach (followOne b) es r).effects = Effect.urls es := by
    intro es
    induction es with
    | nil => exact fun _ => rfl
    | cons e es ih =>
      intro r
      rw [forEach_cons, effects_bind, Effect.urls_append, hone, ih, ← Effect.urls_append]
      rfl
  change Effect.urls ((forEach (followOne b) o.effects r).effects ++ []) = _
  rw [List.append_nil]
  exact hall o.effects r

section Keeps

/-! Whatever the legs are no part of, stays when legs come and go. -/

variable {β : Type} {p : Recorder → β}
  (hp : ∀ (r : Recorder) s legs, r.session = some s →
    p { r with session := some { s with legs := legs } } = p r)
include hp

theorem addLeg_keeps (r : Recorder) (b : Switchboard) (m : LocalStream) :
    p (r.addLeg b m).value = p r := by
  unfold addLeg
  split
  · rfl
  · rename_i s hs
    split
    · rfl
    · dsimp only [value_bind]
      split
      · exact hp r s _ hs
      · rfl

theorem removeLeg_keeps (r : Recorder) (b : Switchboard) (m : LocalStream) :
    p (r.removeLeg b m).value = p r := by
  unfold removeLeg
  split
  · rfl
  · rename_i s hs
    split
    · rfl
    · exact hp r s _ hs

theorem follow_keeps (r : Recorder) (b : Switchboard) (o : Outcome α) :
    p (r.follow b o).value.1 = p r := by
  refine forEach_induction (p := fun r' : Recorder => p r' = p r) rfl fun r' hr e _ => ?_
  rw [← hr]
  unfold followOne
  split
  · exact addLeg_keeps hp r' b _
  · exact removeLeg_keeps hp r' b _
  · rfl

end Keeps

end Recorder

end VideoCall

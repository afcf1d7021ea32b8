import VideoCall.Proofs.Gallery.Captures
import VideoCall.Proofs.Recorder.Effects

/-!
# Legs

A recorder that follows the gallery hears of each captured stream that goes before its tracks are
told to stop, and of each one that comes. A stream that goes is no leg any more, whatever the
connection says; one that comes is a leg if the connection takes it. All else that the gallery does
passes.

## Main definitions

* `Effect.Ahead` : an effect comes before any track is told to stop.
* `Recorder.Tracks` : every leg is a captured stream.
* `Recorder.Covers` : every captured stream is a leg.

## Main results

* `Recorder.mem_legs_addLeg`, `Recorder.mem_legs_removeLeg` : the legs after a stream came or went.
* `Recorder.follow_removeLocal`, `Recorder.follow_addLocal` : what a recorder does that follows.
* `Recorder.Tracks.removeLocal`, `Recorder.Tracks.addLocal` : legs remain captured streams.
* `Recorder.Covers.removeLocal`, `Recorder.Covers.addLocal` : captured streams remain legs.
-/

namespace VideoCall

open Media Outcome Peer

/-! ### Effects -/

namespace Effect

/-- An effect comes before any track is told to stop. -/
def Ahead (e : Effect) (es : List Effect) : Prop :=
  ∃ before after, es = before ++ e :: after ∧ stops before = []

namespace Ahead

variable {e : Effect} {es fs : List Effect}

theorem head (e : Effect) (es : List Effect) : Ahead e (e :: es) := ⟨[], es, rfl, rfl⟩

theorem append_left (hes : stops es = []) (h : Ahead e fs) : Ahead e (es ++ fs) := by
  obtain ⟨before, after, rfl, hbefore⟩ := h
  refine ⟨es ++ before, after, (List.append_assoc _ _ _).symm, ?_⟩
  rw [stops_append, hes, hbefore]
  rfl

theorem append_right (h : Ahead e es) (fs : List Effect) : Ahead e (es ++ fs) := by
  obtain ⟨before, after, rfl, hbefore⟩ := h
  exact ⟨before, after ++ fs, List.append_assoc _ _ _, hbefore⟩

end Ahead

end Effect

namespace Recorder

/-! ### Streams that come and go -/

section Legs

variable (r : Recorder) (b : Switchboard) (m : LocalStream)

theorem mem_legs_iff {r : Recorder} {id : StreamId} :
    id ∈ r.legs ↔ ∃ s, r.session = some s ∧ s.legs.contains id := by
  unfold legs
  cases r.session with
  | none => simp
  | some s => simp [Table.mem_keys_iff, Table.contains, Option.isSome_iff_exists]

theorem mem_legs_of_session {r : Recorder} {s : Session} (hs : r.session = some s)
    {id : StreamId} : id ∈ r.legs ↔ s.legs.contains id := by
  simp [mem_legs_iff, hs]

theorem legs_of_none {r : Recorder} (h : r.session = none) : r.legs = [] := by
  unfold legs
  rw [h]
  rfl

theorem active_of_session {r : Recorder} {s : Session} (hs : r.session = some s) :
    r.active = true := by
  unfold active
  rw [hs]
  rfl

theorem nodup_legs : r.legs.Nodup := by
  unfold legs
  cases r.session with
  | none => exact .nil
  | some s => exact s.legs.nodup_keys

theorem removeLeg_of_not_mem {r : Recorder} (h : m.stream.id ∉ r.legs) :
    r.removeLeg b m = pure r := by
  unfold removeLeg
  split
  · rfl
  · rename_i s hs
    split
    · rfl
    · rename_i leg hleg
      exact absurd ((mem_legs_of_session hs).2 (Option.isSome_iff_exists.2 ⟨leg, hleg⟩)) h

theorem removeLeg_of_get? {r : Recorder} {s : Session} {leg : Stream} (hs : r.session = some s)
    (hleg : s.legs.get? m.stream.id = some leg) :
    r.removeLeg b m =
      ⟨{ r with session := some { s with legs := s.legs.erase m.stream.id } },
        [.line (.told s.line (.removeStream leg)
          !b.refusals.refuses .recording (.removeStream leg)),
          .measured (.set .recordingLegs (s.legs.erase m.stream.id).size)]⟩ := by
  unfold removeLeg
  simp only [hs, hleg]
  rfl

theorem addLeg_of_none {r : Recorder} (hs : r.session = none) : r.addLeg b m = pure r := by
  unfold addLeg
  rw [hs]

theorem addLeg_of_mem {r : Recorder} (h : m.stream.id ∈ r.legs) : r.addLeg b m = pure r := by
  obtain ⟨s, hs, hc⟩ := mem_legs_iff.1 h
  unfold addLeg
  simp only [hs, hc, if_true]

section New

variable {r : Recorder} {b : Switchboard} {s : Session} (hs : r.session = some s)
  (hnew : m.stream.id ∉ r.legs)
include hs hnew

theorem addLeg_of_refused (hrefused : b.refusals.addStream .recording = true) :
    r.addLeg b m = ⟨r, [.line (.told s.line (.addStream m.stream) false)]⟩ := by
  have hc : ¬ s.legs.contains m.stream.id := fun hc => hnew ((mem_legs_of_session hs).2 hc)
  unfold addLeg Switchboard.tell Refusals.refuses
  simp only [hs, if_neg hc, hrefused]
  rfl

theorem addLeg_of_taken (htaken : b.refusals.addStream .recording = false) :
    r.addLeg b m =
      ⟨{ r with session := some { s with legs := s.legs.insert m.stream.id m.stream } },
        [.line (.told s.line (.addStream m.stream) true),
          .measured (.set .recordingLegs (s.legs.insert m.stream.id m.stream).size)]⟩ := by
  have hc : ¬ s.legs.contains m.stream.id := fun hc => hnew ((mem_legs_of_session hs).2 hc)
  unfold addLeg Switchboard.tell Refusals.refuses
  simp only [hs, if_neg hc, htaken]
  rfl

end New

/-- A stream that goes is no leg any more. -/
theorem mem_legs_removeLeg (id : StreamId) :
    id ∈ (r.removeLeg b m).value.legs ↔ id ∈ r.legs ∧ id ≠ m.stream.id := by
  by_cases hm : m.stream.id ∈ r.legs
  · obtain ⟨s, hs, hc⟩ := mem_legs_iff.1 hm
    obtain ⟨leg, hleg⟩ := Option.isSome_iff_exists.1 hc
    rw [removeLeg_of_get? b m hs hleg, mem_legs_of_session hs, mem_legs_of_session rfl]
    unfold Table.contains
    rw [Table.get?_erase]
    split <;> simp_all
  · rw [removeLeg_of_not_mem b m hm]
    exact (and_iff_left_of_imp fun hid (he : id = m.stream.id) => hm (he ▸ hid)).symm

/-- A stream that comes is a leg if it was one before, or if the connection takes it. -/
theorem mem_legs_addLeg (id : StreamId) :
    id ∈ (r.addLeg b m).value.legs ↔ id ∈ r.legs ∨
      id = m.stream.id ∧ r.active ∧ b.refusals.addStream .recording = false := by
  cases hs : r.session with
  | none =>
    have hinactive : ¬ r.active := by simp [active, hs]
    rw [addLeg_of_none b m hs]
    exact (or_iff_left fun h => hinactive h.2.1).symm
  | some s =>
    have hactive := active_of_session hs
    by_cases hm : m.stream.id ∈ r.legs
    · rw [addLeg_of_mem b m hm]
      exact (or_iff_left_of_imp fun h => h.1 ▸ hm).symm
    · cases hrefused : b.refusals.addStream .recording with
      | true =>
        rw [addLeg_of_refused m hs hm hrefused]
        exact (or_iff_left fun h => by cases h.2.2).symm
      | false =>
        rw [addLeg_of_taken m hs hm hrefused, mem_legs_of_session hs, mem_legs_of_session rfl]
        unfold Table.contains
        rw [Table.get?_insert]
        split <;> simp_all

/-- If a stream that comes is no leg, then the connection refused it. -/
theorem told_addLeg {r : Recorder} {s : Session} (hs : r.session = some s)
    (hnot : m.stream.id ∉ (r.addLeg b m).value.legs) :
    .line (.told s.line (.addStream m.stream) false) ∈ (r.addLeg b m).effects := by
  have hor := (mem_legs_addLeg r b m _).not.1 hnot
  have hrefused : b.refusals.addStream .recording = true := by
    by_contra h
    exact hor (Or.inr ⟨rfl, active_of_session hs, Bool.not_eq_true _ ▸ h⟩)
  rw [addLeg_of_refused m hs (fun h => hor (Or.inl h)) hrefused]
  exact List.mem_singleton_self _

end Legs

/-! ### Following -/

section Follow

variable {α β : Type} (r : Recorder) (b : Switchboard)

theorem follow_eq (o : Outcome α) :
    r.follow b o = ⟨((forEach (followOne b) o.effects r).value, o.value),
      (forEach (followOne b) o.effects r).effects⟩ :=
  congrArg (Outcome.mk _) (List.append_nil _)

/-- A recorder that follows goes on with its session. -/
theorem exists_session_of_follow {r : Recorder} {b : Switchboard} {o : Outcome α} {s' : Session}
    (hs' : (r.follow b o).value.1.session = some s') :
    ∃ s, r.session = some s ∧ s'.numbers = s.numbers := by
  have hnumbers : (r.follow b o).value.1.session.map Session.numbers =
      r.session.map Session.numbers :=
    follow_keeps (p := fun r => r.session.map Session.numbers)
      (fun r s legs hs => by rw [hs]; rfl) r b o
  rw [hs', Option.map_some] at hnumbers
  obtain ⟨s, hs, hn⟩ := Option.map_eq_some_iff.1 hnumbers.symm
  exact ⟨s, hs, hn.symm⟩

/-- A recorder follows one step after the other. -/
theorem follow_bind (o : Outcome α) (f : α → Outcome β) :
    r.follow b (o >>= f) = r.follow b o >>= fun p => p.1.follow b (f p.2) := by
  change _ = (⟨((r.follow b o).value.1.follow b (f o.value)).value,
    (r.follow b o).effects ++ ((r.follow b o).value.1.follow b (f o.value)).effects⟩ :
    Outcome (Recorder × β))
  rw [follow_eq, follow_eq, follow_eq, effects_bind, value_forEach_append, effects_forEach_append]
  rfl

/-- What concerns no captured stream passes. -/
theorem follow_of_unheard {o : Outcome α} (h : ∀ e ∈ o.effects, ∀ l, e ≠ .leg l) :
    r.follow b o = ⟨(r, o.value), o.effects⟩ := by
  have hpass : ∀ es : List Effect, (∀ e ∈ es, ∀ l, e ≠ .leg l) →
      forEach (followOne b) es r = ⟨r, es⟩ := by
    intro es hes
    induction es with
    | nil => rfl
    | cons e es ih =>
      have hone : followOne b r e = ⟨r, [e]⟩ := by
        cases e with
        | leg l => exact absurd rfl (hes _ List.mem_cons_self l)
        | _ => rfl
      rw [forEach_cons, hone]
      change (⟨(forEach (followOne b) es r).value, [e] ++ (forEach (followOne b) es r).effects⟩ :
        Outcome Recorder) = _
      rw [ih fun e he => hes e (List.mem_cons_of_mem _ he)]
      rfl
  rw [follow_eq, hpass o.effects h]

theorem followOne_of_none {r : Recorder} (hs : r.session = none) (e : LegEvent) :
    r.followOne b (.leg e) = pure r := by
  have hnot : ∀ id, id ∉ r.legs := by simp [legs_of_none hs]
  cases e with
  | added m => exact addLeg_of_none b m hs
  | removed m => exact removeLeg_of_not_mem b m (hnot _)

/-- A recorder that is told of a captured stream deals with it. -/
theorem follow_tell (e : LegEvent) :
    r.follow b (Gallery.tell r.active e) =
      ⟨((r.followOne b (.leg e)).value, ()), (r.followOne b (.leg e)).effects⟩ := by
  cases hs : r.session with
  | none =>
    have hinactive : r.active = false := by simp [active, hs]
    rw [followOne_of_none b hs, hinactive]
    rfl
  | some s =>
    rw [active_of_session hs, follow_eq]
    exact congrArg (Outcome.mk _) (List.append_nil _)

/-- A recorder that is told of a captured stream, and of nothing after that, deals with it. -/
theorem follow_tell_bind (e : LegEvent) {rest : Outcome α}
    (hrest : ∀ e ∈ rest.effects, ∀ l, e ≠ .leg l) :
    r.follow b (Gallery.tell r.active e >>= fun _ => rest) =
      ⟨((r.followOne b (.leg e)).value, rest.value),
        (r.followOne b (.leg e)).effects ++ rest.effects⟩ := by
  rw [follow_bind, follow_tell]
  change (⟨((r.followOne b (.leg e)).value.follow b rest).value,
    (r.followOne b (.leg e)).effects ++ ((r.followOne b (.leg e)).value.follow b rest).effects⟩ :
    Outcome (Recorder × α)) = _
  rw [follow_of_unheard _ b hrest]

end Follow

/-! ### Captured streams -/

section Captured

variable {r : Recorder} {b : Switchboard} {g : Gallery} {type : StreamType}

theorem follow_removeLocal_of_none (h : g.locals.get? type = none) :
    r.follow b (g.removeLocal r.active type) = pure (r, (g, none)) := by
  rw [Gallery.removeLocal_of_none r.active h]
  rfl

/-- A stream that goes is dealt with before its tracks are told to stop. -/
theorem follow_removeLocal {m : LocalStream} (h : g.locals.get? type = some m) :
    r.follow b (g.removeLocal r.active type) =
      ⟨((r.removeLeg b m).value, ({ g with locals := g.locals.erase type }, some m)),
        (r.removeLeg b m).effects ++ (Gallery.releaseLocal m).effects⟩ := by
  have hunheard : Emits (fun e => ∀ l, e ≠ .leg l) (Gallery.releaseLocal m >>= fun _ =>
      pure (({ g with locals := g.locals.erase type } : Gallery), some m)) := by
    refine .bind (.bind (.emitAll fun e he => ?_) (.forSome (fun url => .emit nofun) _)) (.pure _)
    obtain ⟨t, -, rfl⟩ := List.mem_map.1 he
    nofun
  unfold Gallery.removeLocal
  rw [h]
  dsimp only
  rw [follow_tell_bind r b (.removed m) hunheard]
  exact congrArg (Outcome.mk _) (congrArg _ (List.append_nil _))

/-- A leg is taken from the connection before the tracks of its stream are told to stop. -/
theorem ahead_follow_removeLocal {s : Session} {m : LocalStream} {leg : Stream}
    (hs : r.session = some s) (hm : g.locals.get? type = some m)
    (hleg : s.legs.get? m.stream.id = some leg) :
    ∃ accepted, Effect.Ahead (.line (.told s.line (.removeStream leg) accepted))
      (r.follow b (g.removeLocal r.active type)).effects := by
  rw [follow_removeLocal hm, removeLeg_of_get? b m hs hleg]
  exact ⟨_, .append_right (.head _ _) _⟩

/-- A stream that comes is dealt with when it has its URL. -/
private theorem follow_install {recording : Bool} (hactive : r.active = recording) (e : UrlEvent)
    (m : LocalStream) (g : Gallery) :
    r.follow b (emit (.url e) >>= fun _ => Gallery.tell recording (.added m) >>= fun _ =>
      pure (g, m)) = ⟨((r.addLeg b m).value, (g, m)), .url e :: (r.addLeg b m).effects⟩ := by
  have hrest : Emits (fun e => ∀ l, e ≠ .leg l) (pure (g, m)) := .pure _
  have htell := follow_tell_bind r b (.added m) hrest
  rw [hactive] at htell
  rw [follow_bind, follow_of_unheard r b (o := emit (.url e)) fun _ he => by
    rw [List.mem_singleton.1 he]
    nofun]
  change (⟨(r.follow b (Gallery.tell recording (.added m) >>= fun _ => pure (g, m))).value,
    [.url e] ++ (r.follow b (Gallery.tell recording (.added m) >>= fun _ =>
      pure (g, m))).effects⟩ : Outcome (Recorder × Gallery × LocalStream)) = _
  rw [htell]
  exact congrArg (Outcome.mk _) (congrArg _ (List.append_nil _))

/-- A stream that comes is dealt with when the one of its type is gone. -/
theorem follow_addLocal (r : Recorder) (b : Switchboard) (g : Gallery) (type : StreamType)
    (stream : Stream) :
    let left := r.follow b (g.removeLocal r.active type)
    let m := (g.addLocal r.active type stream).value.2
    (r.follow b (g.addLocal r.active type stream)).value.1 = (left.value.1.addLeg b m).value ∧
      ∃ e : UrlEvent, (r.follow b (g.addLocal r.active type stream)).effects =
        left.effects ++ .url e :: (left.value.1.addLeg b m).effects := by
  intro left m
  have hactive : left.value.1.active = r.active :=
    follow_keeps (p := active) (fun r s legs hs => by simp [active, hs]) _ _ _
  have hinstall := follow_install (b := b) hactive (left.value.2.1.urls.event stream.id) m
    (g.addLocal r.active type stream).value.1
  unfold Gallery.addLocal
  rw [follow_bind, value_bind, effects_bind]
  constructor
  · exact congrArg (fun o : Outcome (Recorder × Gallery × LocalStream) => o.value.1) hinstall
  · exact ⟨_, congrArg (left.effects ++ ·) (congrArg Outcome.effects hinstall)⟩

/-- So is the leg whose stream is replaced. -/
theorem ahead_follow_addLocal {s : Session} {m : LocalStream} {leg : Stream}
    (hs : r.session = some s) (hm : g.locals.get? type = some m)
    (hleg : s.legs.get? m.stream.id = some leg) (stream : Stream) :
    ∃ accepted, Effect.Ahead (.line (.told s.line (.removeStream leg) accepted))
      (r.follow b (g.addLocal r.active type stream)).effects := by
  obtain ⟨accepted, hahead⟩ := ahead_follow_removeLocal (b := b) hs hm hleg
  obtain ⟨-, e, heffects⟩ := r.follow_addLocal b g type stream
  rw [heffects]
  exact ⟨accepted, hahead.append_right _⟩

end Captured

/-! ### Legs and captured streams -/

/-- Every leg has the id of a captured stream. -/
def Tracks (r : Recorder) (captured : List Stream) : Prop :=
  ∀ id ∈ r.legs, ∃ m ∈ captured, m.id = id

/-- Every captured stream has the id of a leg. -/
def Covers (r : Recorder) (captured : List Stream) : Prop := ∀ m ∈ captured, m.id ∈ r.legs

theorem Tracks.of_perm {r r' : Recorder} {l l' : List Stream} (h : r.Tracks l)
    (hlegs : r'.legs = r.legs) (hl : l'.Perm l) : r'.Tracks l' := by
  intro id hid
  obtain ⟨m, hm, he⟩ := h id (hlegs ▸ hid)
  exact ⟨m, hl.mem_iff.2 hm, he⟩

theorem Covers.of_perm {r r' : Recorder} {l l' : List Stream} (h : r.Covers l)
    (hlegs : r'.legs = r.legs) (hl : l'.Perm l) : r'.Covers l' :=
  fun m hm => hlegs ▸ h m (hl.mem_iff.1 hm)

/-- Legs that are all captured, once each, are what is captured. -/
theorem Tracks.perm {r : Recorder} {l : List Stream} (h : r.Tracks l) (hcovers : r.Covers l)
    (hnodup : (l.map (·.id)).Nodup) : r.legs.Perm (l.map (·.id)) := by
  refine (List.perm_ext_iff_of_nodup r.nodup_legs hnodup).2 fun id => ⟨fun hid => ?_, fun hid => ?_⟩
  · exact List.mem_map.2 (h id hid)
  · obtain ⟨m, hm, rfl⟩ := List.mem_map.1 hid
    exact hcovers m hm

section Changes

variable {r : Recorder} {b : Switchboard} {g : Gallery} {type : StreamType}

theorem Tracks.removeLocal (h : r.Tracks g.captured) :
    (r.follow b (g.removeLocal r.active type)).value.1.Tracks
      (g.removeLocal r.active type).value.1.captured := by
  cases hm : g.locals.get? type with
  | none =>
    rw [follow_removeLocal_of_none hm, Gallery.removeLocal_of_none r.active hm]
    exact h
  | some m =>
    rw [follow_removeLocal hm, Gallery.value_removeLocal r.active hm]
    intro id hid
    obtain ⟨hleg, hne⟩ := (mem_legs_removeLeg r b m id).1 hid
    obtain ⟨x, hx, rfl⟩ := h id hleg
    rcases List.mem_cons.1 ((Gallery.captured_perm_of_get? hm).mem_iff.1 hx) with rfl | hx
    · exact absurd rfl hne
    · exact ⟨x, hx, rfl⟩

theorem Tracks.addLocal (h : r.Tracks g.captured) (stream : Stream) :
    (r.follow b (g.addLocal r.active type stream)).value.1.Tracks
      (g.addLocal r.active type stream).value.1.captured := by
  have hperm := g.captured_addLocal_perm r.active type stream
  rw [(r.follow_addLocal b g type stream).1]
  intro id hid
  rcases (mem_legs_addLeg _ b _ id).1 hid with hleg | ⟨rfl, -, -⟩
  · obtain ⟨x, hx, rfl⟩ := h.removeLocal id hleg
    exact ⟨x, hperm.mem_iff.2 (List.mem_cons_of_mem _ hx), rfl⟩
  · exact ⟨stream, hperm.mem_iff.2 List.mem_cons_self, rfl⟩

variable (hnodup : (g.captured.map (·.id)).Nodup)
include hnodup

theorem Covers.removeLocal (h : r.Covers g.captured) :
    (r.follow b (g.removeLocal r.active type)).value.1.Covers
      (g.removeLocal r.active type).value.1.captured := by
  cases hm : g.locals.get? type with
  | none =>
    rw [follow_removeLocal_of_none hm, Gallery.removeLocal_of_none r.active hm]
    exact h
  | some m =>
    have hperm := Gallery.captured_perm_of_get? hm
    have hdistinct := List.nodup_cons.1 ((hperm.map (·.id)).nodup_iff.1 hnodup)
    rw [follow_removeLocal hm, Gallery.value_removeLocal r.active hm]
    intro x hx
    refine (mem_legs_removeLeg r b m x.id).2 ⟨h x (hperm.mem_iff.2 (List.mem_cons_of_mem _ hx)), ?_⟩
    exact fun he => hdistinct.1 (List.mem_map.2 ⟨x, hx, he⟩)

/-- Captured streams remain legs when one comes, unless the connection refuses it. -/
theorem Covers.addLocal (h : r.Covers g.captured) {s : Session} (hs : r.session = some s)
    {stream : Stream}
    (htaken : .line (.told s.line (.addStream stream) false) ∉
      (r.follow b (g.addLocal r.active type stream)).effects) :
    (r.follow b (g.addLocal r.active type stream)).value.1.Covers
      (g.addLocal r.active type stream).value.1.captured := by
  have hperm := g.captured_addLocal_perm r.active type stream
  obtain ⟨hvalue, e, heffects⟩ := r.follow_addLocal b g type stream
  have hline : (r.follow b (g.removeLocal r.active type)).value.1.session.map Session.line =
      some s.line := by
    rw [follow_keeps (p := fun r => r.session.map Session.line) (fun r s legs hs => by simp [hs]),
      hs]
    rfl
  obtain ⟨s', hs', hline'⟩ := Option.map_eq_some_iff.1 hline
  rw [hvalue]
  intro x hx
  rcases List.mem_cons.1 (hperm.mem_iff.1 hx) with rfl | hx
  · by_contra hnot
    have htold := told_addLeg b _ hs' hnot
    rw [hline'] at htold
    rw [heffects] at htaken
    exact htaken (List.mem_append_right _ (List.mem_cons_of_mem _ htold))
  · exact (mem_legs_addLeg _ b _ x.id).2 (Or.inl (h.removeLocal hnodup x hx))

end Changes

/-! ### Sessions -/

/-- What can come of all else to a recorder, while the given streams are captured. -/
inductive Course (captured : List Stream) (r r' : Recorder) : Prop
  /-- There is no session. -/
  | ended (h : r'.session = none)
  /-- The session goes on with its legs. -/
  | kept (hnumbers : r'.session.map Session.numbers = r.session.map Session.numbers)
      (hlegs : r'.legs = r.legs)
  /-- A session begins with the captured streams. -/
  | begun (hnone : r.session = none) (htracks : r'.Tracks captured) (hcovers : r'.Covers captured)

theorem Course.refl (captured : List Stream) (r : Recorder) : Course captured r r := .kept rfl rfl

theorem Tracks.course {r r' : Recorder} {l : List Stream} (h : r.Tracks l)
    (hc : Course l r r') : r'.Tracks l := by
  cases hc with
  | ended hnone =>
    intro id hid
    rw [legs_of_none hnone] at hid
    exact absurd hid List.not_mem_nil
  | kept _ hlegs => exact h.of_perm hlegs (.refl l)
  | begun _ htracks _ => exact htracks

/-- The legs that a session begins with have the ids of the captured streams. -/
theorem contains_ofList_iff (captured : List LocalStream) (id : StreamId) :
    (Table.ofList (captured.map fun m => (m.stream.id, m.stream))).contains id ↔
      ∃ m ∈ captured.map (·.stream), m.id = id := by
  rw [Table.contains, Table.get?_ofList, Option.isSome_iff_ne_none, ne_eq,
    Entries.lookup_eq_none_iff]
  simp

section Course

variable (r : Recorder)

theorem course_start (b : Switchboard) (room : RoomId) (user : UserId) (url : Option String)
    (captured : List LocalStream) :
    Course (captured.map (·.stream)) r (r.start b room user url captured).value.1 := by
  have hlegs := contains_ofList_iff captured
  cases hs : r.session with
  | some s =>
    have hpure : r.start b room user url captured = pure (r, b, false) := by
      unfold start
      rw [hs]
    rw [hpure]
    exact .refl _ r
  | none =>
    unfold start Switchboard.dial
    rw [hs]
    dsimp only
    split
    · exact .refl _ r
    · refine .begun hs (fun id hid => ?_) fun m hm => ?_
      · exact (hlegs id).1 ((mem_legs_of_session rfl).1 hid)
      · exact (mem_legs_of_session rfl).2 ((hlegs m.id).2 ⟨m, hm, rfl⟩)

theorem course_stop (captured : List Stream) : Course captured r r.stop.value.1 := by
  unfold stop
  split
  · exact .refl _ r
  · exact .ended rfl

theorem course_report (captured : List Stream) (x : Report) :
    Course captured r (r.report x).value := by
  cases x with
  | signal sig =>
    rw [report, offer]
    split
    · exact .refl _ r
    · rename_i s hs
      split
      · exact .refl _ r
      · refine .kept ?_ ?_
        · rw [hs]
          rfl
        · unfold legs
          rw [hs]
          rfl
  | failed e => exact r.course_stop captured
  | closed => exact r.course_stop captured
  | _ => exact .refl _ r

end Course

end Recorder

end VideoCall

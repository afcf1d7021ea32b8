import VideoCall.Proofs.Call.Reactions
import VideoCall.Proofs.Call.Scope

/-!
# What leaves the mesh alone

Connections to participants are asked for only by rosters, and what they send goes by the streams
captured here. All else leaves them alone: it asks for no connection, unless to the recording
service, and passes no stream on, unless over the connection to that service.

## Main definitions

* `Effect.OffMesh` : an effect that leaves the connections to participants alone.
* `Call.Input.bearsOnMesh` : the inputs that may do more.
* `Effect.sought` : the participants to whom a connection is asked for.

## Main results

* `Call.offMesh_meet` : all other inputs leave the connections to participants alone.
* `Recorder.offMesh_follow` : so does a recorder that follows the streams captured here.
-/

namespace VideoCall

open Outcome Peer Wire Media
open Effect (Within Part)

/-! ### Effects -/

namespace Effect

/-- An effect asks for no connection to a participant, and passes streams over the given connection
only. -/
def OffMesh (line : Option Nat) : Effect → Prop
  | .line (.opened _ key _) => key = .recording
  | .line (.refused key _) => key = .recording
  | .line (.told n (.addStream _) _) => line = some n
  | .line (.told n (.removeStream _) _) => line = some n
  | _ => True

variable {e : Effect} {line : Option Nat} {es : List Effect}

/-- What opens nothing and tells connections nothing leaves them alone. -/
theorem Within.offMesh {ps : List Part} (h : e.Within ps) (hopening : .opening ∉ ps)
    (hcommand : .command ∉ ps) (line : Option Nat) : e.OffMesh line := by
  cases e with
  | line l =>
    cases l with
    | opened n key options => exact absurd h hopening
    | refused key options => exact absurd h hcommand
    | told n command accepted => exact absurd h hcommand
    | destroyed n => trivial
  | _ => trivial

/-- The participants to whom a connection is asked for, whether it is opened or refused. -/
def sought (es : List Effect) : List UserId :=
  (lines es).filterMap fun
    | .opened _ (.participant user) _ => some user
    | .refused (.participant user) _ => some user
    | _ => none

@[simp]
theorem sought_append (es fs : List Effect) : sought (es ++ fs) = sought es ++ sought fs := by
  simp [sought]

/-- What leaves the connections to participants alone asks for none. -/
theorem sought_eq_nil (h : ∀ e ∈ es, e.OffMesh line) : sought es = [] := by
  unfold sought lines
  rw [List.filterMap_filterMap]
  refine List.filterMap_eq_nil_iff.2 fun e he => ?_
  have hoff := h e he
  cases e with
  | line l =>
    cases l with
    | opened n key options =>
      obtain rfl : key = .recording := hoff
      rfl
    | refused key options =>
      obtain rfl : key = .recording := hoff
      rfl
    | _ => rfl
  | _ => rfl

end Effect

/-! ### The recorder -/

namespace Recorder

variable (r : Recorder) (b : Switchboard)

/-- The connection to the recording service. -/
def line? : Option Nat := r.session.map Session.line

theorem line?_addLeg (m : LocalStream) : (r.addLeg b m).value.line? = r.line? :=
  addLeg_keeps (fun r s legs hs => by unfold line?; rw [hs]; rfl) r b m

theorem line?_removeLeg (m : LocalStream) : (r.removeLeg b m).value.line? = r.line? :=
  removeLeg_keeps (fun r s legs hs => by unfold line?; rw [hs]; rfl) r b m

theorem offMesh_tell (key : Key) (n : Nat) (c : Command) :
    Emits (Effect.OffMesh (some n)) (b.tell key n c) := by
  refine .bind (.emit ?_) (.pure _)
  cases c <;> trivial

theorem offMesh_addLeg (m : LocalStream) : Emits (Effect.OffMesh r.line?) (r.addLeg b m) := by
  unfold addLeg line?
  split
  · exact .pure _
  · rename_i s hs
    rw [hs]
    split
    · exact .pure _
    · refine (offMesh_tell b _ _ _).bind ?_
      split
      · exact .bind ((within_showLegs _).mono fun _ he => he.offMesh (by decide) (by decide) _)
          (.pure _)
      · exact .pure _

theorem offMesh_removeLeg (m : LocalStream) :
    Emits (Effect.OffMesh r.line?) (r.removeLeg b m) := by
  unfold removeLeg line?
  split
  · exact .pure _
  · rename_i s hs
    rw [hs]
    split
    · exact .pure _
    · exact (offMesh_tell b _ _ _).bind
        (.bind ((within_showLegs _).mono fun _ he => he.offMesh (by decide) (by decide) _)
          (.pure _))

/-- A recorder that follows the streams captured here passes them on over its own connection
only. -/
theorem offMesh_follow {α : Type} {o : Outcome α} (ho : Emits Effect.OfGallery o) :
    Emits (Effect.OffMesh r.line?) (r.follow b o) := by
  have hall : ∀ (es : List Effect) (r : Recorder), (∀ e ∈ es, e.OfGallery) →
      Emits (Effect.OffMesh r.line?) (forEach (followOne b) es r) := by
    intro es
    induction es with
    | nil => exact fun _ _ => .pure _
    | cons e es ih =>
      intro r hes
      -- whatever the recorder does about one effect, its connection is the same afterwards
      have hone : Emits (Effect.OffMesh r.line?) (followOne b r e) ∧
          (followOne b r e).value.line? = r.line? := by
        unfold followOne
        split
        · exact ⟨r.offMesh_addLeg b _, r.line?_addLeg b _⟩
        · exact ⟨r.offMesh_removeLeg b _, r.line?_removeLeg b _⟩
        · have he := (hes e List.mem_cons_self).within.offMesh (by decide) (by decide) r.line?
          exact ⟨.bind (.emit he) (.pure _), rfl⟩
      exact hone.1.bind (hone.2 ▸ ih _ fun f hf => hes f (List.mem_cons_of_mem _ hf))
  exact .bind (hall o.effects r ho) (.pure _)

theorem offMesh_start (line : Option Nat) (room : RoomId) (user : UserId) (url : Option String)
    (captured : List LocalStream) :
    Emits (Effect.OffMesh line) (r.start b room user url captured) :=
  r.emits_start (fun _ => rfl) (fun _ => rfl) (fun _ => trivial) _ _ _ _

/-- The reply of the service is an envelope for the connection to it, and no stream. -/
theorem offMesh_reply (line : Option Nat) (session : Nat) (result : Except JoinError Signal) :
    Emits (Effect.OffMesh line) (r.reply b session result) := by
  unfold reply
  repeat' split
  · exact .pure _
  · exact .pure _
  · exact .bind (.bind (.emit trivial) (.pure _)) (.pure _)
  · exact .pure _

end Recorder

/-! ### Reactions -/

namespace Call

/-- The inputs that may bear on the connections to participants, or on what these send: a roster,
and a captured stream that comes or goes. -/
def Input.bearsOnMesh : Input → Bool
  | .relay (.message (.roster _)) => true
  | .intent _ (.addLocal _ _) => true
  | .intent _ (.removeLocal _) => true
  | _ => false

variable (c : Call) (line : Option Nat)

theorem offMesh_stopRecording (loud : Bool) :
    Emits (Effect.OffMesh line) (c.stopRecording loud) :=
  (c.within_stopRecording loud).mono fun _ he => he.offMesh (by decide) (by decide) line

theorem offMesh_applyRecording (recording : Bool) (url : Option String) :
    Emits (Effect.OffMesh line) (c.applyRecording recording url) := by
  unfold applyRecording
  split
  · have hpublish : ∀ b : Bool, Emits (Effect.OffMesh line) (when b (publishRecording true)) :=
      fun b => .when ((within_publishRecording true).mono fun _ he =>
        he.offMesh (by decide) (by decide) line) b
    exact (c.recorder.offMesh_start _ line _ _ _ _).bind ((hpublish _).bind (.pure _))
  · exact c.offMesh_stopRecording line true

theorem offMesh_onRecordingReport (r : Report) :
    Emits (Effect.OffMesh line) (c.onRecordingReport r) := by
  have hstop := c.offMesh_stopRecording line true
  have hgoOn (hopening : .opening ∉ Part.ofRecordingReport r)
      (hcommand : .command ∉ Part.ofRecordingReport r) :
      Emits (Effect.OffMesh line) (c.onRecordingReport r) :=
    (c.within_onRecordingReport r).mono fun _ he => he.offMesh hopening hcommand line
  cases r with
  | failed e => exact c.onRecordingReport_of_stop (r := .failed e) rfl ▸ hstop
  | closed => exact c.onRecordingReport_of_stop (r := .closed) rfl ▸ hstop
  | _ => exact hgoOn (by simp [Part.ofRecordingReport]) (by simp [Part.ofRecordingReport])

/-- A message that is no roster leaves the connections to participants alone. An envelope is passed
on to one of them, and is no stream. -/
theorem offMesh_onMessage {m : Incoming} (hm : ∀ r, m ≠ .roster r) :
    Emits (Effect.OffMesh line) (c.onMessage m) := by
  have hgoOn (hopening : .opening ∉ Part.ofMessage m) (hcommand : .command ∉ Part.ofMessage m) :
      Emits (Effect.OffMesh line) (c.onAdmitted m) :=
    (c.within_onAdmitted m).mono fun _ he => he.offMesh hopening hcommand line
  have hcount (counter : Counter) : Emits (Effect.OffMesh line) (count counter) := .emit trivial
  unfold onMessage
  split
  · cases m with
    | roster r => exact absurd rfl (hm r)
    | signal sender s =>
      rw [onAdmitted]
      unfold Mesh.signal
      split
      · exact .bind (.bind (hcount _) (.pure _)) (.pure _)
      · exact .bind (.bind (.bind (.emit trivial) (.pure _)) (.pure _)) (.pure _)
    | recordOutcome r =>
      rw [onAdmitted]
      split
      · exact c.offMesh_applyRecording line _ _
      · exact .pure _
    | _ =>
      exact hgoOn (by simp [Part.ofMessage, Part.change]) (by simp [Part.ofMessage, Part.change])
  · exact .bind (hcount _) (.pure _)

theorem offMesh_onReply (session : Nat) (result : Except Recorder.JoinError Signal) :
    Emits (Effect.OffMesh line) (c.onReply session result) :=
  .bind (c.recorder.offMesh_reply c.board line session result)
    (.bind (.forSome (fun _ => .emit trivial) _) (.pure _))

/-- All inputs but rosters and captured streams that come or go leave the connections to
participants alone. -/
theorem offMesh_meet {m : Moment} (hm : m.input.bearsOnMesh = false) :
    Emits (Effect.OffMesh line) (c.meet m) := by
  obtain ⟨now, refusals, i⟩ := m
  have hgoOn (hopening : .opening ∉ i.parts) (hcommand : .command ∉ i.parts) :
      Emits (Effect.OffMesh line) (c.meet ⟨now, refusals, i⟩) :=
    (c.within_meet _).mono fun _ he => he.offMesh hopening hcommand line
  cases i with
  | relay e =>
    cases e with
    | message m =>
      refine offMesh_onMessage _ line fun r hr => ?_
      subst hr
      cases hm
    | _ => exact hgoOn (by simp [Input.parts]) (by simp [Input.parts])
  | report n key r =>
    cases key with
    | recording => exact offMesh_onRecordingReport _ line r
    | participant user =>
      cases r <;> exact hgoOn (by simp [Input.parts, Part.ofReport, Part.change])
        (by simp [Input.parts, Part.ofReport, Part.change])
  | reply session result => exact offMesh_onReply _ line session result
  | intent ticket i =>
    cases i with
    | addLocal type stream => cases hm
    | removeLocal type => cases hm
    | _ =>
      exact hgoOn (by simp [Input.parts, Part.ofIntent, Part.change])
        (by simp [Input.parts, Part.ofIntent, Part.change])
  | deadline => exact hgoOn (by simp [Input.parts]) (by simp [Input.parts])

end Call

end VideoCall

import VideoCall.Proofs.Call.Reactions
import VideoCall.Proofs.Call.Scope

/-!
# What is shown is there

A call shows its streams when it publishes them and when it is asked for its status. Whatever it
shows while it deals with an input is what there is to render once it has dealt with it: no picture
of an intermediate state gets out.

## Main definitions

* `Effect.shown` : what is shown of the streams.
* `Effect.Depicts` : what an effect shows, if it shows anything, is a given picture.

## Main results

* `Call.depicts_meet` : whatever a moment shows is there when it is over.
* `Call.eq_of_mem_shown_meet` : the same, for all that is shown.
-/

namespace VideoCall

open Outcome Peer Wire Media
open Effect (Within Part)

/-! ### Effects -/

namespace Effect

/-- What is shown of the streams, unasked or in answer to the question for the status. -/
def shown (es : List Effect) : List Gallery.Snapshot :=
  es.filterMap fun
    | .published (.streams s) => some s
    | .answered _ (.status x) => some x.streams
    | _ => none

@[simp]
theorem shown_append (es fs : List Effect) : shown (es ++ fs) = shown es ++ shown fs :=
  List.filterMap_append

/-- What an effect shows of the streams, if it shows anything, is the given picture. -/
def Depicts (s : Gallery.Snapshot) : Effect → Prop
  | .published (.streams s') => s' = s
  | .answered _ (.status x) => x.streams = s
  | _ => True

theorem eq_of_mem_shown {es : List Effect} {s s' : Gallery.Snapshot}
    (h : ∀ e ∈ es, e.Depicts s) (hs : s' ∈ shown es) : s' = s := by
  obtain ⟨e, he, hes⟩ := List.mem_filterMap.1 hs
  have hdepicts := h e he
  cases e with
  | published n =>
    cases n with
    | streams x => exact Option.some.inj hes ▸ hdepicts
    | _ => cases hes
  | answered ticket a =>
    cases a with
    | status x => exact Option.some.inj hes ▸ hdepicts
    | _ => cases hes
  | _ => cases hes

/-- What has to do with neither streams nor answers shows nothing. -/
theorem Within.depicts {ps : List Part} {e : Effect} (h : e.Within ps)
    (hps : .streams ∉ ps ∧ .answer ∉ ps) (s : Gallery.Snapshot) : e.Depicts s := by
  cases e with
  | published n =>
    cases n with
    | streams x => exact absurd h hps.1
    | _ => trivial
  | answered ticket a => exact absurd h hps.2
  | _ => trivial

end Effect

open Effect (Depicts)

theorem Outcome.Emits.depicts {α : Type} {o : Outcome α} {ps : List Part}
    (h : Emits (Within ps) o) (hps : .streams ∉ ps ∧ .answer ∉ ps) (s : Gallery.Snapshot) :
    Emits (Depicts s) o :=
  h.mono fun _ he => he.depicts hps s

/-! ### Reactions -/

namespace Call

variable (c : Call) (s : Gallery.Snapshot)

/-- Dials are answered by a word or a failure. -/
theorem depicts_settleDial {a : Answer} (ha : ∀ ticket, Depicts s (.answered ticket a)) :
    Emits (Depicts s) (c.settleDial a) := by
  unfold settleDial
  split
  · exact .pure _
  · exact .bind (.emit (ha _)) (.pure _)

theorem depicts_settleCounted (outcome : DialOutcome) {a : Answer}
    (ha : ∀ ticket, Depicts s (.answered ticket a)) :
    Emits (Depicts s) (c.settleCounted outcome a) := by
  unfold settleCounted
  split
  · exact .pure _
  · exact .bind (.emit trivial) (c.depicts_settleDial s ha)

theorem depicts_onRoster (r : Roster) : Emits (Depicts s) (c.onRoster r) := by
  have hconnect (c : Call) (initiator : Bool) (user : UserId) :
      Emits (Depicts s) (c.connectTo initiator user) :=
    (c.within_connectTo initiator user).depicts (by decide) s
  exact .bind (.emit trivial) (.bind (.forEach (fun c user _ => hconnect c _ user) _)
    (.bind (depicts_settleCounted _ s _ fun _ => trivial)
      ((within_applyRecording _ _ _).depicts (by decide) s)))

/-- The gallery changes, and what there is to render then is shown. -/
theorem depicts_change (change : Gallery.Change) {f : Gallery → Call}
    (hf : ∀ g, (f g).gallery = g) :
    Emits (Depicts (c.gallery.apply change).value.snapshot)
      (c.gallery.apply change >>= fun g => (f g).publishStreams >>= fun _ => pure (f g)) :=
  .bind ((c.gallery.within_apply change).depicts (by decide) _)
    (.bind (.emit (congrArg Gallery.snapshot (hf _))) (.pure _))

theorem depicts_onAdmitted (m : Incoming) :
    Emits (Depicts (c.onAdmitted m).value.gallery.snapshot) (c.onAdmitted m) := by
  have hgoOn (hps : .streams ∉ Part.ofMessage m ∧ .answer ∉ Part.ofMessage m) :=
    (c.within_onAdmitted m).depicts hps (c.onAdmitted m).value.gallery.snapshot
  cases m with
  | roster r => exact c.depicts_onRoster _ r
  | announcements sender batch => exact c.depicts_change (.announce sender batch) fun _ => rfl
  | hangUp user => exact c.depicts_change (.unassociate user) fun _ => rfl
  | _ => exact hgoOn (by simp [Part.ofMessage, Part.recorded])

theorem depicts_tearDown (user : UserId) (reason : CloseReason) :
    Emits (Depicts (c.tearDown user reason).value.gallery.snapshot) (c.tearDown user reason) :=
  ((c.mesh.within_close user reason).depicts (by decide) _).bind
    (c.depicts_change (.removePeer user) fun _ => rfl)

theorem depicts_onPeerReport (user : UserId) (r : Report) :
    Emits (Depicts (c.onPeerReport user r).value.gallery.snapshot) (c.onPeerReport user r) := by
  have hgoOn (hps : .streams ∉ Part.ofReport r ∧ .answer ∉ Part.ofReport r) :=
    (c.within_onPeerReport user r).depicts hps (c.onPeerReport user r).value.gallery.snapshot
  cases r with
  | track t stream mid => exact c.depicts_change (.addTrack ⟨user, mid⟩ t stream) fun _ => rfl
  | muted id =>
    rw [onPeerReport, onMuted]
    split
    · exact c.depicts_change (.removeTrack id) fun _ => rfl
    · exact .pure _
  | unmuted t stream mid => exact c.depicts_change (.addTrack ⟨user, mid⟩ t stream) fun _ => rfl
  | failed e => exact c.depicts_tearDown user .error
  | closed => exact c.depicts_tearDown user .remoteClose
  | _ => exact hgoOn (by simp [Part.ofReport])

theorem depicts_hangUp : Emits (Depicts c.hangUp.value.gallery.snapshot) c.hangUp :=
  ((c.within_send _).depicts (by decide) _).bind
    ((depicts_settleDial _ _ (a := .failed .dialSuperseded) fun _ => trivial).bind
      (((within_release _ true).depicts (by decide) _).bind (.bind (.emit rfl) (.pure _))))

theorem depicts_addLocal (type : StreamType) (stream : Stream) :
    Emits (Depicts (c.addLocal type stream).value.1.gallery.snapshot) (c.addLocal type stream) :=
  ((Emits.forSome (fun _ => c.mesh.within_tellAll _ _) _).depicts (by decide) _).bind
    (((Recorder.within_follow _ _ (c.gallery.emits_addLocal _ type stream)).depicts
        (by decide) _).bind
      (((Mesh.within_tellAll _ _ _).depicts (by decide) _).bind (.bind (.emit rfl) (.pure _))))

theorem depicts_removeLocal (type : StreamType) :
    Emits (Depicts (c.removeLocal type).value.1.gallery.snapshot) (c.removeLocal type) := by
  have hgone (c : Call) (m : LocalStream) : Emits (Depicts c.gallery.snapshot)
      (c.mesh.tellAll c.board (.removeStream m.stream) >>= fun _ => c.publishStreams) :=
    ((c.mesh.within_tellAll _ _).depicts (by decide) _).bind (.emit rfl)
  exact ((Recorder.within_follow _ _ (c.gallery.emits_removeLocal _ type)).depicts
    (by decide) _).bind (.bind (.forSome (fun m => hgone _ m) _) (.pure _))

theorem depicts_onIntent (now ticket : Nat) (i : Intent) :
    Emits (Depicts (c.onIntent now ticket i).value.gallery.snapshot)
      (c.onIntent now ticket i) := by
  have hanswer (c : Call) (s : Gallery.Snapshot) {a : Answer}
      (ha : Depicts s (.answered ticket a)) :
      Emits (Depicts s) (emit (.answered ticket a) >>= fun _ => pure c) :=
    .bind (.emit ha) (.pure _)
  cases i with
  | dial nickname =>
    exact (c.depicts_settleCounted _ _ (a := .failed .dialSuperseded) fun _ => trivial).bind
      (.bind ((within_send _ _).depicts (by decide) _) (.pure _))
  | hangUp => exact c.depicts_hangUp.bind (hanswer _ _ trivial)
  | toggleRecord => exact ((c.within_send _).depicts (by decide) _).bind (hanswer _ _ trivial)
  | addLocal type stream => exact (c.depicts_addLocal type stream).bind (hanswer _ _ trivial)
  | removeLocal type => exact (c.depicts_removeLocal type).bind (hanswer _ _ trivial)
  | trackChanged type t => exact .bind (.emit rfl) (hanswer _ _ trivial)
  | getStatus => exact hanswer _ _ rfl

/-! ### All inputs -/

theorem depicts_react (now : Nat) (i : Input) :
    Emits (Depicts (c.react now i).value.gallery.snapshot) (c.react now i) := by
  cases i with
  | relay e =>
    cases e with
    | message m =>
      rw [react, onRelay, onMessage]
      split
      · exact c.depicts_onAdmitted m
      · exact .bind (.emit trivial) (.pure _)
    | _ => exact (c.within_onRelay _).depicts (by simp [Input.parts]) _
  | report n key r =>
    cases key with
    | recording =>
      refine (c.within_onRecordingReport r).depicts ?_ _
      cases r <;> simp [Part.ofRecordingReport, Part.recorded]
    | participant user =>
      rw [react, onReport]
      split
      · exact .pure _
      · exact depicts_onPeerReport _ user r
  | reply session result => exact (c.within_onReply session result).depicts (by decide) _
  | intent ticket i => exact c.depicts_onIntent now ticket i
  | deadline =>
    rw [react, onDeadline]
    split
    · exact .pure _
    · exact .bind (.emit trivial) (depicts_settleCounted _ _ _ fun _ => trivial)

/-- Whatever a moment shows of the streams is what there is to render when it is over. -/
theorem depicts_meet (m : Moment) :
    Emits (Depicts (c.meet m).value.gallery.snapshot) (c.meet m) :=
  depicts_react _ m.now m.input

theorem eq_of_mem_shown_meet {m : Moment} {s : Gallery.Snapshot}
    (hs : s ∈ Effect.shown (c.meet m).effects) : s = (c.meet m).value.gallery.snapshot :=
  Effect.eq_of_mem_shown (c.depicts_meet m) hs

end Call

end VideoCall

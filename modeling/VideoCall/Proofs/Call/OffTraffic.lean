import VideoCall.Proofs.Call.Reactions
import VideoCall.Proofs.Metric
import VideoCall.Proofs.Peer.Mesh
import VideoCall.Proofs.Recorder.Sessions

/-!
# What carries no envelopes

Envelopes go out to the relay, come in from it and are passed on to connections, or are dropped and
counted. That is the traffic of a call. The reports of connections, the messages of the relay, and
the replies of the recording service bear on it, and nothing else does.

## Main definitions

* `Effect.OffTraffic` : an effect carries no envelope, and counts none as dropped.
* `Effect.posted`, `Effect.delivered`, `Effect.dropped` : the traffic in a list of effects.
* `Call.Input.bearsOnTraffic` : the inputs that may bear on the traffic.

## Main results

* `Call.offTraffic_react` : all other inputs leave the traffic alone.
* `Call.offTraffic_onAdmitted` : so does a message that counts, unless it is an envelope.
* `Call.offTraffic_shutDown` : so does the end of the call.
-/

namespace VideoCall

open Outcome Peer Wire Media
open Effect (Within Part)

/-- Whether a command passes an envelope on. -/
def Peer.Command.isSignal : Command → Bool
  | .signal _ => true
  | _ => false

/-- Whether a message to the relay is an envelope for a participant. -/
def Wire.Outgoing.isSignal : Outgoing → Bool
  | .signal _ _ => true
  | _ => false

/-! ### Effects -/

namespace Effect

/-- An effect carries no envelope, and counts none as dropped. -/
def OffTraffic : Effect → Prop
  | .line (.told _ (.signal _) _) => False
  | .sent ⟨_, .signal _ _⟩ => False
  | .measured (.count (.signalsDropped _)) => False
  | _ => True

/-- What was sent to the relay for a participant: envelopes. -/
def posted (u : UserId) (es : List Effect) : List Envelope :=
  (messages es).filter fun
    | ⟨_, .signal receiver _⟩ => receiver = u
    | _ => false

/-- The envelopes passed on to the connection of a number, whether it took them or not. -/
def delivered (n : Nat) (es : List Effect) : List Signal :=
  (signals es).filterMap fun (k, s) => if k = n then some s else none

/-- What was counted as dropped: the reasons. -/
def dropped (es : List Effect) : List DropReason :=
  (counts es).filterMap fun | .signalsDropped reason => some reason | _ => none

variable {es : List Effect} {e : Effect}

@[simp]
theorem posted_append (u : UserId) (es fs : List Effect) :
    posted u (es ++ fs) = posted u es ++ posted u fs := by
  simp [posted]

@[simp]
theorem delivered_append (n : Nat) (es fs : List Effect) :
    delivered n (es ++ fs) = delivered n es ++ delivered n fs := by
  simp [delivered, signals]

@[simp]
theorem dropped_append (es fs : List Effect) : dropped (es ++ fs) = dropped es ++ dropped fs := by
  simp [dropped]

theorem posted_eq_nil (h : ∀ e ∈ es, e.OffTraffic) (u : UserId) : posted u es = [] := by
  refine List.filter_eq_nil_iff.2 fun m hm => ?_
  obtain ⟨e, he, hem⟩ := List.mem_filterMap.1 hm
  have hoff := h e he
  cases e with
  | sent m' =>
    obtain rfl : m' = m := Option.some.inj hem
    obtain ⟨room, message⟩ := m'
    cases message with
    | signal receiver s => exact hoff.elim
    | _ => exact Bool.false_ne_true
  | _ => cases hem

theorem signals_eq_nil (h : ∀ e ∈ es, e.OffTraffic) : signals es = [] := by
  refine List.filterMap_eq_nil_iff.2 fun l hl => ?_
  obtain ⟨e, he, hel⟩ := List.mem_filterMap.1 hl
  have hoff := h e he
  cases e with
  | line l' =>
    obtain rfl : l' = l := Option.some.inj hel
    cases l' with
    | told k command accepted =>
      cases command with
      | signal s => exact hoff.elim
      | _ => rfl
    | _ => rfl
  | _ => cases hel

theorem delivered_eq_nil (h : ∀ e ∈ es, e.OffTraffic) (n : Nat) : delivered n es = [] := by
  unfold delivered
  rw [signals_eq_nil h]
  rfl

theorem dropped_eq_nil (h : ∀ e ∈ es, e.OffTraffic) : dropped es = [] := by
  refine List.filterMap_eq_nil_iff.2 fun c hc => ?_
  obtain ⟨e, he, hec⟩ := List.mem_filterMap.1 hc
  have hoff := h e he
  cases e with
  | measured m =>
    cases m with
    | count c' =>
      obtain rfl : c' = c := Option.some.inj hec
      cases c' with
      | signalsDropped reason => exact hoff.elim
      | _ => rfl
    | set g n => cases hec
  | _ => cases hec

/-- How often a reason was counted. -/
theorem count_dropped (es : List Effect) (reason : DropReason) :
    (dropped es).count reason = (counts es).count (.signalsDropped reason) := by
  unfold dropped
  induction counts es with
  | nil => rfl
  | cons c cs ih =>
    rw [List.count_cons, List.filterMap_cons]
    cases c with
    | signalsDropped r =>
      dsimp only
      rw [List.count_cons, ih]
      simp
    | _ => simpa using ih

/-- What has to do with no commands, messages and metrics carries nothing. -/
theorem Within.offTraffic {ps : List Part} (h : e.Within ps) (hcommand : .command ∉ ps)
    (hrelay : .relay ∉ ps) (hmetrics : .metrics ∉ ps) : e.OffTraffic := by
  cases e with
  | line l =>
    cases l with
    | told n command accepted => exact absurd h hcommand
    | _ => trivial
  | sent m => exact absurd h hrelay
  | measured m => exact absurd h hmetrics
  | _ => trivial

theorem OfGallery.offTraffic (h : e.OfGallery) : e.OffTraffic := by
  cases e with
  | line l => exact h.elim
  | sent m => exact h.elim
  | measured m =>
    cases m with
    | count c =>
      obtain rfl : c = .tracksWithdrawn := h
      trivial
    | set g n => trivial
  | _ => trivial

end Effect

open Effect (OffTraffic)

/-- Small steps: none has to do with commands, messages or metrics. -/
theorem Outcome.Emits.offTraffic {α : Type} {o : Outcome α} {ps : List Part}
    (h : Emits (Within ps) o) (hps : .command ∉ ps ∧ .relay ∉ ps ∧ .metrics ∉ ps) :
    Emits OffTraffic o :=
  h.mono fun _ he => he.offTraffic hps.1 hps.2.1 hps.2.2

/-! ### Connections -/

namespace Peer

theorem Switchboard.offTraffic_tell (b : Switchboard) (key : Key) (n : Nat) {c : Command}
    (hc : c.isSignal = false) : Emits OffTraffic (b.tell key n c) := by
  refine .bind (.emit ?_) (.pure _)
  cases c with
  | signal s => cases hc
  | _ => trivial

namespace Mesh

variable (m : Mesh) (b : Switchboard)

theorem offTraffic_create (user : UserId) (initiator : Bool) (streams : List Stream) :
    Emits OffTraffic (m.create b user initiator streams) := by
  cases hl : m.lines.get? user with
  | some l =>
    rw [create_of_get? b initiator streams hl]
    exact .pure _
  | none =>
    cases hopening : b.refusals.opening (.participant user) with
    | true =>
      rw [create_of_refused initiator streams hl hopening]
      exact List.forall_mem_singleton.2 trivial
    | false =>
      rw [create_of_none initiator streams hl hopening]
      exact List.forall_mem_cons.2 ⟨trivial, List.forall_mem_singleton.2 trivial⟩

theorem offTraffic_close (user : UserId) (reason : CloseReason) :
    Emits OffTraffic (m.close user reason) := by
  unfold close
  split
  · exact .pure _
  · exact .bind (.emit trivial) (.bind (.emit trivial) (.pure _))

theorem offTraffic_closeAll (reason : CloseReason) : Emits OffTraffic (m.closeAll reason) :=
  .bind (.forEach (fun m user _ => (m.offTraffic_close user reason).map _) _) (.pure _)

theorem offTraffic_tellAll {c : Command} (hc : c.isSignal = false) :
    Emits OffTraffic (m.tellAll b c) :=
  .forEach (fun () (user, l) _ => (b.offTraffic_tell (.participant user) l.number hc).map _) _

end Mesh

end Peer

/-! ### The recording -/

namespace Recorder

variable (r : Recorder) (b : Switchboard)

theorem offTraffic_start (room : RoomId) (user : UserId) (url : Option String)
    (captured : List LocalStream) : Emits OffTraffic (r.start b room user url captured) :=
  r.emits_start (fun _ => trivial) (fun _ => trivial) (fun _ => trivial) _ _ _ _

theorem offTraffic_stop : Emits OffTraffic r.stop := by
  unfold stop
  split
  · exact .pure _
  · exact .bind (.emit trivial) (.bind (.emit trivial) (.pure _))

theorem offTraffic_addLeg (m : LocalStream) : Emits OffTraffic (r.addLeg b m) := by
  unfold addLeg
  repeat' split
  · exact .pure _
  · exact .pure _
  · refine (b.offTraffic_tell _ _ rfl).bind ?_
    split
    · exact .bind (.emit trivial) (.pure _)
    · exact .pure _

theorem offTraffic_removeLeg (m : LocalStream) : Emits OffTraffic (r.removeLeg b m) := by
  unfold removeLeg
  repeat' split
  · exact .pure _
  · exact .pure _
  · exact (b.offTraffic_tell _ _ rfl).bind (.bind (.emit trivial) (.pure _))

/-- A recorder that follows a gallery passes streams on, and no envelopes. -/
theorem offTraffic_follow {α : Type} {o : Outcome α} (h : Emits Effect.OfGallery o) :
    Emits OffTraffic (r.follow b o) := by
  refine .bind (.forEach (fun r e he => ?_) _) (.pure _)
  unfold followOne
  split
  · exact r.offTraffic_addLeg b _
  · exact r.offTraffic_removeLeg b _
  · exact .bind (.emit (h e he).offTraffic) (.pure _)

end Recorder

/-! ### Reactions -/

namespace Call

variable (c : Call)

theorem offTraffic_send {m : Outgoing} (hm : m.isSignal = false) :
    Emits OffTraffic (c.send m) := by
  refine .when (.emit ?_) _
  cases m with
  | signal u s => cases hm
  | _ => trivial

theorem offTraffic_settleCounted (outcome : DialOutcome) (a : Answer) :
    Emits OffTraffic (c.settleCounted outcome a) := by
  unfold settleCounted
  split
  · exact .pure _
  · exact .bind (.emit trivial) ((c.within_settleDial a).offTraffic (by decide))

theorem offTraffic_publishRecording (active : Bool) : Emits OffTraffic (publishRecording active) :=
  .emit trivial

theorem offTraffic_stopRecording (loud : Bool) : Emits OffTraffic (c.stopRecording loud) :=
  c.recorder.offTraffic_stop.bind (.bind (.when (offTraffic_publishRecording false) _) (.pure _))

theorem offTraffic_applyRecording (recording : Bool) (url : Option String) :
    Emits OffTraffic (c.applyRecording recording url) := by
  unfold applyRecording
  split
  · exact (c.recorder.offTraffic_start _ _ _ _ _).bind
      (.bind (.when (offTraffic_publishRecording true) _) (.pure _))
  · exact c.offTraffic_stopRecording true

theorem offTraffic_onRecordingReport (r : Report) : Emits OffTraffic (c.onRecordingReport r) := by
  have hpublish (active : Bool) : Emits OffTraffic (when active (publishRecording false)) :=
    (offTraffic_publishRecording false).when active
  refine .bind ?_ (.bind (hpublish _) (.pure _))
  cases r with
  | signal s => exact (c.recorder.within_offer s).offTraffic (by decide)
  | failed e => exact c.recorder.offTraffic_stop.map _
  | closed => exact c.recorder.offTraffic_stop.map _
  | _ => exact .pure _

theorem offTraffic_connectTo (initiator : Bool) (user : UserId) :
    Emits OffTraffic (c.connectTo initiator user) :=
  (c.mesh.offTraffic_create _ _ _ _).bind
    (.bind ((within_tellRefusal _).offTraffic (by decide)) (.pure _))

theorem offTraffic_onRoster (r : Roster) : Emits OffTraffic (c.onRoster r) :=
  .bind (.emit trivial) (.bind (.forEach (fun c user _ => c.offTraffic_connectTo _ user) _)
    (.bind (offTraffic_settleCounted _ _ _) (offTraffic_applyRecording _ _ _)))

/-- The gallery changes, and that is published. -/
theorem offTraffic_change (change : Gallery.Change) (f : Gallery → Call) :
    Emits OffTraffic (c.gallery.apply change >>= fun g =>
      (f g).publishStreams >>= fun _ => pure (f g)) :=
  .bind ((c.gallery.emits_apply change).mono fun _ => Effect.OfGallery.offTraffic)
    (.bind (.emit trivial) (.pure _))

/-- A message that counts leaves the traffic alone, unless it is an envelope. -/
theorem offTraffic_onAdmitted {m : Incoming} (hm : ∀ u s, m ≠ .signal u s) :
    Emits OffTraffic (c.onAdmitted m) := by
  cases m with
  | roster r => exact c.offTraffic_onRoster r
  | signal sender s => exact absurd rfl (hm sender s)
  | announcements sender batch => exact c.offTraffic_change (.announce sender batch) _
  | hangUp user => exact c.offTraffic_change (.unassociate user) _
  | roomCreated creator =>
    rw [onAdmitted, Membership.roomMade]
    cases c.membership.nickname with
    | none => exact .bind (.pure _) (.pure _)
    | some name => exact (c.offTraffic_send rfl).bind (.pure _)
  | recordOutcome r =>
    rw [onAdmitted]
    split
    · exact c.offTraffic_applyRecording _ _
    · exact .pure _

theorem offTraffic_tearDown (user : UserId) (reason : CloseReason) :
    Emits OffTraffic (c.tearDown user reason) :=
  (c.mesh.offTraffic_close user reason).bind (c.offTraffic_change (.removePeer user) _)

theorem offTraffic_onPeerReport (user : UserId) {r : Report} (hr : ∀ s, r ≠ .signal s) :
    Emits OffTraffic (c.onPeerReport user r) := by
  cases r with
  | signal s => exact absurd rfl (hr s)
  | track t stream mid => exact c.offTraffic_change (.addTrack ⟨user, mid⟩ t stream) _
  | muted id =>
    rw [onPeerReport, onMuted]
    split
    · exact c.offTraffic_change (.removeTrack id) _
    · exact .pure _
  | unmuted t stream mid => exact c.offTraffic_change (.addTrack ⟨user, mid⟩ t stream) _
  | data bytes => exact .bind (.emit trivial) (.pure _)
  | failed e => exact c.offTraffic_tearDown user _
  | closed => exact c.offTraffic_tearDown user _
  | _ => exact .pure _

theorem offTraffic_release (loud : Bool) : Emits OffTraffic (c.release loud) :=
  (c.mesh.offTraffic_closeAll .hangUp).bind ((offTraffic_stopRecording _ loud).bind
    (.bind ((c.gallery.emits_apply .reset).mono fun _ => Effect.OfGallery.offTraffic) (.pure _)))

theorem offTraffic_settleDial (a : Answer) : Emits OffTraffic (c.settleDial a) :=
  (c.within_settleDial a).offTraffic (by decide)

theorem offTraffic_hangUp : Emits OffTraffic c.hangUp :=
  (c.offTraffic_send rfl).bind ((offTraffic_settleDial _ _).bind
    ((offTraffic_release _ true).bind (.bind (.emit trivial) (.pure _))))

theorem offTraffic_addLocal (type : StreamType) (stream : Stream) :
    Emits OffTraffic (c.addLocal type stream) :=
  .bind (.forSome (fun _ => c.mesh.offTraffic_tellAll _ rfl) _)
    ((c.recorder.offTraffic_follow _ (c.gallery.emits_addLocal _ type stream)).bind
      ((Mesh.offTraffic_tellAll _ _ rfl).bind (.bind (.emit trivial) (.pure _))))

theorem offTraffic_removeLocal (type : StreamType) : Emits OffTraffic (c.removeLocal type) := by
  have hgone : ∀ (c : Call) (m : LocalStream), Emits OffTraffic
      (c.mesh.tellAll c.board (.removeStream m.stream) >>= fun _ => c.publishStreams) :=
    fun c _ => (c.mesh.offTraffic_tellAll _ rfl).bind (.emit trivial)
  exact (c.recorder.offTraffic_follow _ (c.gallery.emits_removeLocal _ type)).bind
    (.bind (.forSome (fun m => hgone _ m) _) (.pure _))

theorem offTraffic_onIntent (now ticket : Nat) (i : Intent) :
    Emits OffTraffic (c.onIntent now ticket i) := by
  have hanswer : ∀ (c : Call) (a : Answer),
      Emits OffTraffic (emit (.answered ticket a) >>= fun _ => pure c) :=
    fun c a => .bind (.emit trivial) (.pure _)
  cases i with
  | dial nickname =>
    exact (c.offTraffic_settleCounted _ _).bind (.bind (offTraffic_send _ rfl) (.pure _))
  | hangUp => exact c.offTraffic_hangUp.bind (hanswer _ _)
  | toggleRecord => exact (c.offTraffic_send rfl).bind (hanswer _ _)
  | addLocal type stream => exact (c.offTraffic_addLocal type stream).bind (hanswer _ _)
  | removeLocal type => exact (c.offTraffic_removeLocal type).bind (hanswer _ _)
  | trackChanged type t => exact .bind (.emit trivial) (hanswer _ _)
  | getStatus => exact hanswer _ _

theorem offTraffic_onDeadline : Emits OffTraffic c.onDeadline := by
  unfold onDeadline
  split
  · exact .pure _
  · exact .bind (.emit trivial) (offTraffic_settleCounted _ _ _)

/-! ### All inputs -/

/-- The inputs that may bear on the traffic: messages of the relay, envelopes from connections to
participants, and replies of the recording service. -/
def Input.bearsOnTraffic : Input → Bool
  | .relay (.message _) => true
  | .report _ (.participant _) (.signal _) => true
  | .reply _ _ => true
  | _ => false

/-- All other inputs leave the traffic alone. -/
theorem offTraffic_react (now : Nat) {i : Input} (hi : i.bearsOnTraffic = false) :
    Emits OffTraffic (c.react now i) := by
  cases i with
  | relay e =>
    cases e with
    | connected => exact .bind (.emit trivial) (.bind (offTraffic_send _ rfl) (.pure _))
    | disconnected =>
      rw [react, onRelay]
      split
      · exact .bind (.emit trivial) (.pure _)
      · exact .pure _
    | message m => cases hi
  | report n key r =>
    cases key with
    | recording => exact c.offTraffic_onRecordingReport r
    | participant user =>
      have hr : ∀ s, r ≠ .signal s := by
        rintro s rfl
        cases hi
      rw [react, onReport]
      split
      · exact .pure _
      · exact offTraffic_onPeerReport _ user hr
  | reply session result => cases hi
  | intent ticket i => exact c.offTraffic_onIntent now ticket i
  | deadline => exact c.offTraffic_onDeadline

/-- The end of the call leaves the traffic alone. -/
theorem offTraffic_shutDown : Emits OffTraffic c.shutDown :=
  (c.offTraffic_settleDial _).bind (offTraffic_release _ false)

end Call

end VideoCall

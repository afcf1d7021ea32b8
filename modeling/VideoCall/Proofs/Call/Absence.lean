import VideoCall.Proofs.Call.Changes
import VideoCall.Proofs.Call.OffMesh
import VideoCall.Proofs.Call.Release
import VideoCall.Proofs.Call.Turns

/-!
# Nothing comes back after a hang-up

A participant who left is away until they dial again. Much still arrives in the meantime: rosters
and announcements that the relay had on the way, reports of connections that are gone, replies of
the recording service, and what the participant captures. None of it brings anybody back. There is
no connection to anyone and nobody on show, no connection is asked for, and the relay hears neither
that the participant is ready nor an envelope for anyone. Two kinds of message count at any time,
the news that the room was made and what became of a wish to record; the one is answered only by
who is ready, and the other leads to the recording service only.

## Main definitions

* `Gallery.Vacant` : a gallery shows nothing of others and knows nothing of them.
* `Call.Away` : the participant is not in the call.
* `Call.Absent` : an outcome at which the participant is away, and which nobody else notices.

## Main results

* `Call.Away.meet` : without a dial, who is away stays away.
* `Call.absent_after_hangUp` : from a hang-up on nothing comes back until the next dial.
-/

namespace VideoCall

open Outcome Peer Wire Media
open Effect (Within Part)

/-! ### The gallery -/

namespace Gallery

/-- A gallery shows nothing of others: nobody is on show, no slot holds a track, and nothing is
announced. -/
structure Vacant (g : Gallery) : Prop where
  users : g.users = ∅
  announced : g.announced = ∅
  slots : g.slots = ∅
  index : g.index = ∅

/-- A change that leaves a vacant gallery vacant: one of the captured streams, or the release of
everything. -/
def Change.OfOneself : Change → Prop
  | .reset => True
  | .addLocal _ _ _ => True
  | .removeLocal _ _ => True
  | .setMirror _ _ => True
  | _ => False

theorem Vacant.apply {g : Gallery} (h : g.Vacant) {change : Change} (hc : change.OfOneself) :
    (g.apply change).value.Vacant := by
  have hremove : ∀ recording type, (g.removeLocal recording type).value.1.Vacant := by
    intro recording type
    unfold removeLocal
    split
    · exact h
    · exact ⟨h.users, h.announced, h.slots, h.index⟩
  cases change with
  | reset => exact ⟨rfl, rfl, rfl, rfl⟩
  | addLocal recording type stream =>
    have hbefore := hremove recording type
    exact ⟨hbefore.users, hbefore.announced, hbefore.slots, hbefore.index⟩
  | removeLocal recording type => exact hremove recording type
  | setMirror type t =>
    change (g.setMirror type t).Vacant
    unfold setMirror
    split
    · exact ⟨h.users, h.announced, h.slots, h.index⟩
    · exact h
  | _ => exact hc.elim

end Gallery

/-! ### Messages -/

namespace Effect

/-- An effect tells nobody of the participant: it is no message that they are ready, and no envelope
for another participant. -/
def Discreet : Effect → Prop
  | .sent m => m.message.kind ≠ .ready ∧ m.message.kind ≠ .signal
  | _ => True

variable {e : Effect} {es : List Effect}

/-- What is no message to the relay is discreet. -/
theorem Within.discreet {ps : List Part} (h : e.Within ps) (hrelay : .relay ∉ ps) :
    e.Discreet := by
  cases e with
  | sent m => exact absurd h hrelay
  | _ => trivial

theorem discreet_of_mem_messages (h : ∀ e ∈ es, e.Discreet) {m : Envelope} (hm : m ∈ messages es) :
    m.message.kind ≠ .ready ∧ m.message.kind ≠ .signal := by
  obtain ⟨e, he, hem⟩ := List.mem_filterMap.1 hm
  have hdiscreet := h e he
  cases e with
  | sent m' => exact Option.some.inj hem ▸ hdiscreet
  | _ => cases hem

end Effect

namespace Call

/-- The participant is not in the call: they are not ready, there is no connection to anyone, and
nothing of others is on show or known. -/
structure Away (c : Call) : Prop where
  active : c.membership.active = false
  mesh : c.mesh = .empty
  gallery : c.gallery.Vacant

/-- An input that is no dial. -/
def Input.Undialed (i : Input) : Prop := ∀ ticket nickname, i ≠ .intent ticket (.dial nickname)

theorem Bare.away {c : Call} (h : c.Bare) : c.Away :=
  ⟨h.active, h.mesh, h.gallery ▸ ⟨rfl, rfl, rfl, rfl⟩⟩

variable {c : Call}

theorem discreet_send {m : Outgoing} (hready : m.kind ≠ .ready) (hsignal : m.kind ≠ .signal) :
    Emits Effect.Discreet (c.send m) :=
  .when (.emit ⟨hready, hsignal⟩) _

/-- A hang-up says no more than farewell, whatever it ends. -/
theorem discreet_hangUp : Emits Effect.Discreet c.hangUp := by
  have hsettled := fun c : Call => c.within_settleDial (.failed .dialSuperseded)
  have hreleased := fun c : Call => c.within_release true
  have hfarewell : Emits Effect.Discreet (c.send c.membership.farewell) :=
    discreet_send (by rintro ⟨⟩) (by rintro ⟨⟩)
  refine hfarewell.bind ?_
  refine .bind ((hsettled _).mono fun _ he => he.discreet (by decide)) ?_
  exact .bind ((hreleased _).mono fun _ he => he.discreet (by decide))
    (.bind (.emit trivial) (.pure _))

/-! ### While the participant is away -/

/-- To dial does not open a connection yet. -/
theorem mesh_dial (c : Call) (now ticket : Nat) (nickname : String) :
    (c.dial now ticket nickname).value.mesh = c.mesh := by
  unfold dial
  dsimp only [value_bind, value_pure]
  rw [value_settleCounted]

theorem mesh_onDeadline (c : Call) : c.onDeadline.value.mesh = c.mesh := by
  unfold onDeadline
  split
  · rfl
  · dsimp only [value_bind]
    rw [value_settleCounted]

namespace Away

variable (h : c.Away)
include h

/-- A message that counts is one of the two kinds that always do. -/
theorem of_admits {m : Incoming} (hm : c.membership.admits m = true) :
    (∃ creator, m = .roomCreated creator) ∨ ∃ r, m = .recordOutcome r := by
  cases m with
  | roomCreated creator => exact Or.inl ⟨creator, rfl⟩
  | recordOutcome r => exact Or.inr ⟨r, rfl⟩
  | _ => cases hm.symm.trans h.active

theorem get?_lines (user : UserId) : c.mesh.lines.get? user = none := by
  rw [h.mesh]
  rfl

/-- A roster does not count. -/
theorem onMessage_roster (r : Roster) :
    c.onMessage (.roster r) = (count (.signalsDropped .notJoined) >>= fun _ => pure c) :=
  if_neg (Bool.eq_false_iff.1 h.active)

/-- What the media stack refuses next is no matter. -/
theorem withRefusals (refusals : Refusals) :
    Away { c with board := { c.board with refusals := refusals } } :=
  ⟨h.active, h.mesh, h.gallery⟩

/-- No report comes from a connection to anyone. -/
theorem onReport_participant (user : UserId) (r : Report) :
    c.onReport (.participant user) r = pure c :=
  c.onReport_of_get?_eq_none (h.get?_lines user) r

/-- The gallery changes by what the participant captures and leaves behind, and by nothing else. -/
theorem ofOneself {i : Input} {change : Gallery.Change} (hc : change ∈ c.change? i) :
    change.OfOneself := by
  unfold change? at hc
  split at hc
  · split at hc
    · rename_i hm
      rcases h.of_admits hm with ⟨creator, rfl⟩ | ⟨r, rfl⟩ <;> cases hc
    · cases hc
  · rename_i user r
    have hnone : c.mesh.contains user = false := by
      rw [Mesh.contains, Table.contains, h.get?_lines]
      rfl
    rw [hnone] at hc
    cases hc
  · rename_i ticket i
    cases i <;> cases hc <;> trivial
  · cases hc

theorem gallery_meet (m : Moment) : (c.meet m).value.gallery.Vacant := by
  rw [Call.gallery_meet]
  exact forEach_induction (p := Gallery.Vacant) h.gallery fun g hg change hc =>
    hg.apply (h.ofOneself (Option.mem_toList.1 hc))

theorem mesh_onAdmitted {m : Incoming} (hm : c.membership.admits m = true) :
    (c.onAdmitted m).value.mesh = c.mesh := by
  rcases h.of_admits hm with ⟨creator, rfl⟩ | ⟨r, rfl⟩
  · rfl
  · rw [onAdmitted]
    unfold applyRecording
    repeat' split
    all_goals rfl

theorem mesh_onMessage (m : Incoming) : (c.onMessage m).value.mesh = .empty := by
  unfold onMessage
  split
  · rename_i hm
    exact (h.mesh_onAdmitted hm).trans h.mesh
  · exact h.mesh

theorem mesh_meet (m : Moment) : (c.meet m).value.mesh = .empty := by
  obtain ⟨now, refusals, i⟩ := m
  have h' := h.withRefusals refusals
  unfold Call.meet
  generalize { c with board := { c.board with refusals := refusals } } = c' at h'
  cases i with
  | relay e =>
    cases e with
    | connected => exact h'.mesh
    | disconnected =>
      unfold react onRelay
      dsimp only
      split <;> exact h'.mesh
    | message m => exact h'.mesh_onMessage m
  | report line key r =>
    cases key with
    | recording => exact h'.mesh
    | participant user =>
      change (c'.onReport _ r).value.mesh = _
      rw [h'.onReport_participant]
      exact h'.mesh
  | reply session result => exact h'.mesh
  | intent ticket i =>
    cases i with
    | dial nickname => exact (c'.mesh_dial now ticket nickname).trans h'.mesh
    | hangUp => exact c'.bare_hangUp.mesh
    | _ => exact h'.mesh
  | deadline => exact c'.mesh_onDeadline.trans h'.mesh

/-- Without a dial, who is away stays away. -/
theorem meet {m : Moment} (hm : m.input.Undialed) : (c.meet m).value.Away := by
  refine ⟨(c.turn_meet m).inactive h.active ?_, h.mesh_meet m, h.gallery_meet m⟩
  obtain ⟨now, refusals, i⟩ := m
  cases i with
  | intent ticket i =>
    cases i with
    | dial nickname => exact absurd rfl (hm ticket nickname)
    | _ => rfl
  | _ => rfl

/-- A command for all connections is for none. -/
theorem tellAll (b : Switchboard) (command : Command) : c.mesh.tellAll b command = pure () := by
  rw [h.mesh]
  rfl

theorem offMesh_addLocal (type : StreamType) (stream : Stream) :
    Emits (Effect.OffMesh c.recorder.line?) (c.addLocal type stream) := by
  unfold addLocal
  simp only [h.tellAll]
  exact .bind (.forSome (fun _ => .pure _) _) (.bind
    (c.recorder.offMesh_follow _ (c.gallery.emits_addLocal _ type stream))
    (.bind (.pure _) (.bind (.emit trivial) (.pure _))))

theorem offMesh_removeLocal (type : StreamType) :
    Emits (Effect.OffMesh c.recorder.line?) (c.removeLocal type) := by
  unfold removeLocal
  simp only [h.tellAll]
  exact .bind (c.recorder.offMesh_follow _ (c.gallery.emits_removeLocal _ type))
    (.bind (.forSome (fun _ => .bind (.pure _) (.emit trivial)) _) (.pure _))

/-- No connection to a participant is asked for, whatever comes in. -/
theorem offMesh_meet (m : Moment) : Emits (Effect.OffMesh c.recorder.line?) (c.meet m) := by
  cases hbears : m.input.bearsOnMesh with
  | false => exact c.offMesh_meet _ hbears
  | true =>
    obtain ⟨now, refusals, i⟩ := m
    have h' := h.withRefusals refusals
    unfold Input.bearsOnMesh at hbears
    split at hbears
    · rename_i r hi
      obtain rfl : i = _ := hi
      have hroster := h'.onMessage_roster r
      change Emits _ (onMessage _ (.roster r))
      rw [hroster]
      exact .bind (.emit trivial) (.pure _)
    · rename_i type stream hi
      obtain rfl : i = _ := hi
      exact (h'.offMesh_addLocal type stream).bind (.bind (.emit trivial) (.pure _))
    · rename_i type hi
      obtain rfl : i = _ := hi
      exact (h'.offMesh_removeLocal type).bind (.bind (.emit trivial) (.pure _))
    · cases hbears

/-- Nobody is told that the participant is ready, and nobody gets an envelope. -/
theorem discreet_meet {m : Moment} (hm : m.input.Undialed) :
    Emits Effect.Discreet (c.meet m) := by
  obtain ⟨now, refusals, i⟩ := m
  have hgoOn (hrelay : .relay ∉ i.parts) : Emits Effect.Discreet (c.meet ⟨now, refusals, i⟩) :=
    (c.within_meet _).mono fun _ he => he.discreet hrelay
  cases i with
  | relay e =>
    cases e with
    | connected =>
      exact .bind (.emit trivial) <|
        .bind (discreet_send (by rintro ⟨⟩) (by rintro ⟨⟩)) (.pure _)
    | disconnected => exact hgoOn (by simp [Input.parts])
    | message m =>
      cases m with
      | roomCreated creator =>
        -- only a participant who is ready says so again
        have hname : c.membership.nickname = none :=
          Option.isNone_iff_eq_none.1 (Option.isSome_eq_false_iff.1 h.active)
        change Emits _ (forSome (c.membership.nickname.map _) _ >>= _)
        rw [hname]
        exact .pure _
      | _ => exact hgoOn (by simp [Input.parts, Part.ofMessage, Part.change, Part.recorded])
  | report n key r =>
    cases key with
    | recording =>
      exact hgoOn (by cases r <;> simp [Input.parts, Part.ofRecordingReport, Part.recorded])
    | participant user =>
      have hreport := (h.withRefusals refusals).onReport_participant user r
      change Emits _ (Call.onReport _ (.participant user) r)
      rw [hreport]
      exact .pure _
  | reply session result => exact hgoOn (by simp [Input.parts])
  | intent ticket i =>
    cases i with
    | dial nickname => exact absurd rfl (hm ticket nickname)
    | hangUp => exact discreet_hangUp.bind (.bind (.emit trivial) (.pure _))
    | toggleRecord =>
      exact .bind (discreet_send (by rintro ⟨⟩) (by rintro ⟨⟩)) <|
        .bind (.emit trivial) (.pure _)
    | _ => exact hgoOn (by simp [Input.parts, Part.ofIntent, Part.change])
  | deadline => exact hgoOn (by simp [Input.parts])

end Away

/-! ### Histories -/

/-- The participant is away, and on the way there nobody noticed that they are about: no connection
to anyone was asked for, and no message said that they are ready or passed on an envelope. -/
structure Absent (o : Outcome Call) : Prop where
  away : o.value.Away
  sought : Effect.sought o.effects = []
  discreet : ∀ m ∈ Effect.messages o.effects,
    m.message.kind ≠ .ready ∧ m.message.kind ≠ .signal

namespace Absent

theorem of_emits {o : Outcome Call} (line : Option Nat) (haway : o.value.Away)
    (hoff : Emits (Effect.OffMesh line) o) (hdiscreet : Emits Effect.Discreet o) : Absent o :=
  ⟨haway, Effect.sought_eq_nil hoff, fun _ => Effect.discreet_of_mem_messages hdiscreet⟩

theorem bind {o : Outcome Call} {f : Call → Outcome Call} (h : Absent o)
    (hf : Absent (f o.value)) : Absent (o >>= f) := by
  refine ⟨hf.away, ?_, fun m hm => ?_⟩
  · rw [effects_bind, Effect.sought_append, h.sought, hf.sought, List.append_nil]
  · rw [effects_bind, Effect.messages_append] at hm
    exact (List.mem_append.1 hm).elim (h.discreet m) (hf.discreet m)

end Absent

theorem Away.absent_meet (h : c.Away) {m : Moment} (hm : m.input.Undialed) : Absent (c.meet m) :=
  .of_emits _ (h.meet hm) (h.offMesh_meet m) (h.discreet_meet hm)

theorem Away.absent_run (h : c.Away) {moments : List Moment}
    (hmoments : ∀ m ∈ moments, m.input.Undialed) : Absent (c.run moments) := by
  induction moments generalizing c with
  | nil => exact ⟨h, rfl, fun _ hm => absurd hm List.not_mem_nil⟩
  | cons m moments ih =>
    have hm := h.absent_meet (hmoments m List.mem_cons_self)
    exact hm.bind (ih hm.away fun m' hm' => hmoments m' (List.mem_cons_of_mem _ hm'))

/-- Nor does anyone notice how the call ends. -/
theorem Away.absent_shutDown (h : c.Away) : Absent c.shutDown := by
  have hsettled := c.within_settleDial (.failed .ended)
  have hreleased := fun c : Call => c.within_release false
  have hvalue : c.shutDown.value = (release { c with pending := none } false).value := by
    unfold shutDown
    rw [value_bind, value_settleDial]
  refine .of_emits none ?_ ?_ ?_
  · rw [hvalue]
    exact ⟨h.active, mesh_release _ false, ⟨rfl, rfl, rfl, rfl⟩⟩
  · exact .bind (hsettled.mono fun _ he => he.offMesh (by decide) (by decide) none)
      ((hreleased _).mono fun _ he => he.offMesh (by decide) (by decide) none)
  · exact .bind (hsettled.mono fun _ he => he.discreet (by decide))
      ((hreleased _).mono fun _ he => he.discreet (by decide))

theorem absent_meet_hangUp (c : Call) {m : Moment} {ticket : Nat}
    (hm : m.input = .intent ticket .hangUp) : Absent (c.meet m) := by
  refine .of_emits none (c.bare_meet_hangUp hm).away ?_ ?_
  · exact c.offMesh_meet none (by rw [hm]; rfl)
  · unfold meet react
    rw [hm]
    exact discreet_hangUp.bind (.bind (.emit trivial) (.pure _))

/-- From a hang-up on nothing comes back until the participant dials again, whatever came before
and whatever comes in meanwhile, and neither does it if the call ends then. -/
theorem absent_after_hangUp (s : Settings) (room : RoomId) (user : UserId) (urls : UrlSource)
    (before after : List Moment) {m : Moment} {ticket : Nat}
    (hm : m.input = .intent ticket .hangUp)
    (hafter : ∀ m ∈ after, ∀ ticket nickname, m.input ≠ .intent ticket (.dial nickname)) :
    let c := ((fresh s room user urls .none).run before).value
    Absent (c.run (m :: after)) ∧ Absent (c.run (m :: after) >>= shutDown) := by
  intro c
  have hleft : Absent (c.meet m) := absent_meet_hangUp c hm
  have habsent : Absent (c.run (m :: after)) := hleft.bind (hleft.away.absent_run hafter)
  exact ⟨habsent, habsent.bind habsent.away.absent_shutDown⟩

/-- A call in which there is a connection to Ann. -/
def joined : List Moment :=
  [⟨0, .none, .intent 0 (.dial "me")⟩,
    ⟨1, .none, .relay (.message (.roster ⟨⟨"ann"⟩, [⟨"ann"⟩, ⟨"me"⟩], ∅, false, ""⟩))⟩]

/-- What may still be on the way to a participant who left: a roster, the news that the room was
made, that there is a recording, and the end of the connection to Ann. -/
def latecomers : List Moment :=
  [⟨3, .none, .relay (.message (.roster ⟨⟨"ann"⟩, [⟨"ann"⟩, ⟨"me"⟩], ∅, true, ""⟩))⟩,
    ⟨4, .none, .relay (.message (.roomCreated ⟨"ann"⟩))⟩,
    ⟨5, .none, .relay (.message (.recordOutcome ⟨true, true, ""⟩))⟩,
    ⟨6, .none, .report 0 (.participant ⟨"ann"⟩) .closed⟩]

/-- They bring about a connection to the recording service, and none to Ann. -/
theorem absent_after_hangUp_latecomers :
    let c := ((fresh (.ofRelay "ws://relay") ⟨"room"⟩ ⟨"me"⟩ (.fresh fun _ _ => false) .none).run
      joined).value
    let o := c.run (⟨2, .none, .intent 1 .hangUp⟩ :: latecomers)
    c.mesh.contains ⟨"ann"⟩ = true ∧
      (∀ m ∈ latecomers, ∀ ticket nickname, m.input ≠ .intent ticket (.dial nickname)) ∧
      Effect.opened o.effects = [(1, .recording)] ∧ Absent o := by
  have hlate : ∀ m ∈ latecomers, ∀ ticket nickname, m.input ≠ .intent ticket (.dial nickname) := by
    simp [latecomers]
  exact ⟨by decide, hlate, by decide, (absent_after_hangUp _ _ _ _ joined latecomers rfl hlate).1⟩

end Call

end VideoCall

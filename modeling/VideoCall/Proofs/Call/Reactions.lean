import VideoCall.Proofs.Call.Moves
import VideoCall.Proofs.Peer.Mesh

/-!
# Reactions by moves

Each reaction of a call is put together from moves. Where a reaction ends a connection, or leaves
the call, the connections go before their slots do, and nothing is to be seen in between: that is
one move.

## Main results

* `Call.moves_onAdmitted`, `Call.moves_onReport`, `Call.moves_onIntent` : the reactions to the
  relay, to connections, and to the participant.
* `Call.moves_meet`, `Call.moves_run` : every moment, and every history, leads to what it leads to
  by moves.
-/

namespace VideoCall.Call

open Outcome Peer Wire Media
open Effect (Within Part)

variable (c : Call)

/-! ### The recording -/

theorem moves_startRecording (url : Option String) : Moves c (c.startRecording url) := by
  unfold startRecording
  rcases c.recorder.start_cases c.board c.membership.room c.membership.user url
    c.gallery.locals.values with ⟨es, hstart, hes⟩ | ⟨s, options, hnone, hs, -, hstart⟩
  · have hrefused : Emits (Within [.command])
        (c.recorder.start c.board c.membership.room c.membership.user url
          c.gallery.locals.values) := by
      rw [hstart]
      intro e he
      obtain ⟨options, rfl⟩ := hes e he
      exact List.mem_singleton_self _
    rw [hstart] at hrefused ⊢
    exact .pass (.bind hrefused (.pure _)) (by decide) (.refl c)
  · have hshow : Emits (Within Part.asides) (Recorder.showLegs s) :=
      (Recorder.within_showLegs s).widen (by decide)
    rw [hstart]
    exact (Move.record hnone rfl hs rfl rfl hshow).moves

theorem moves_stopRecording : Moves c (c.stopRecording true) := by
  unfold stopRecording Recorder.stop
  split
  · exact .none c
  · rename_i s hs
    have hshow : Emits (Within Part.asides) (Outcome.gauge .recordingLegs 0) :=
      (within_gauge _ _).widen (by decide)
    exact (Move.stop (r := { c.recorder with session := none }) hs rfl rfl hshow).moves

theorem moves_applyRecording (recording : Bool) (url : Option String) :
    Moves c (c.applyRecording recording url) := by
  unfold applyRecording
  split
  · exact c.moves_startRecording url
  · exact c.moves_stopRecording

/-- An envelope for the recording service changes nothing but that it went out. -/
theorem resembles_offer (s : Signal) :
    Resembles c { c with recorder := (c.recorder.offer s).value } := by
  unfold Recorder.offer
  split
  · exact .refl c
  · rename_i s hs
    split
    · exact .refl c
    · refine ⟨rfl, rfl, rfl, ?_, rfl, rfl⟩
      rw [hs]
      rfl

/-- The end of the connection to the recording service is published like any end of the
recording. -/
theorem onRecordingReport_of_stop {r : Report}
    (hr : c.recorder.report r = (·.1) <$> c.recorder.stop) :
    c.onRecordingReport r = c.stopRecording true := by
  have hstopped : c.recorder.stop.value.2 =
      (c.recorder.active && !c.recorder.stop.value.1.active) := by
    unfold Recorder.stop Recorder.active
    cases c.recorder.session <;> rfl
  unfold onRecordingReport stopRecording
  rw [hr]
  change Outcome.mk _ (((·.1) <$> c.recorder.stop).effects ++ _) =
    Outcome.mk _ (c.recorder.stop.effects ++
      (when (c.recorder.stop.value.2 && true) (publishRecording false) >>= _).effects)
  rw [effects_map, hstopped, Bool.and_true]
  rfl

theorem moves_onRecordingReport (r : Report) : Moves c (c.onRecordingReport r) := by
  cases r with
  | signal s =>
    have hactive : (c.recorder.offer s).value.active = c.recorder.active :=
      (c.resembles_offer s).active
    refine .pass (.bind (Recorder.within_offer _ s) (.bind ?_ (.pure _))) (by decide)
      (c.resembles_offer s)
    change Emits _ (when (c.recorder.active && !(c.recorder.offer s).value.active) _)
    rw [hactive, Bool.and_not_self]
    exact .pure _
  | failed e => exact c.onRecordingReport_of_stop (r := .failed e) rfl ▸ c.moves_stopRecording
  | closed => exact c.onRecordingReport_of_stop (r := .closed) rfl ▸ c.moves_stopRecording
  | _ =>
    -- a recording that goes on is not published again
    have hquiet : Emits (Within []) (when (c.recorder.active && !c.recorder.active)
        (publishRecording false)) := by
      rw [Bool.and_not_self]
      exact .pure _
    exact .pass (.bind (.pure _) (.bind hquiet (.pure _))) (by decide) (.refl c)

/-! ### The relay -/

theorem moves_connectTo (initiator : Bool) {user : UserId} (hother : user ≠ c.membership.user) :
    Moves c (c.connectTo initiator user) := by
  unfold connectTo Mesh.create Switchboard.dial
  split
  · exact .none c
  · rename_i hnew
    split
    · refine .pass (.also (.bind (.bind (Switchboard.within_refused _ _) (.pure _)) (.pure _))
        (.bind (within_tellRefusal _) (.pure _))) (by decide) ⟨rfl, rfl, rfl, rfl, rfl, rfl⟩
    · have hnone : c.mesh.lines.get? user = none := by
        simpa [Mesh.contains, Table.contains] using hnew
      exact (Move.connect hother hnone rfl).moves

theorem moves_settleDial (a : Answer) : Moves c (c.settleDial a) :=
  .pass (c.within_settleDial a) (by decide)
    (by rw [value_settleDial]; exact ⟨rfl, rfl, rfl, rfl, rfl, rfl⟩)

theorem moves_settleCounted (outcome : DialOutcome) (a : Answer) :
    Moves c (c.settleCounted outcome a) :=
  .pass (c.within_settleCounted outcome a) (by decide)
    (by rw [value_settleCounted]; exact ⟨rfl, rfl, rfl, rfl, rfl, rfl⟩)

theorem moves_onRoster (r : Roster) : Moves c (c.onRoster r) := by
  refine .after (within_notify _ _) (by decide) (.bind ?_ ((moves_settleCounted _ _ _).bind
    (moves_applyRecording _ _ _)))
  refine .of_resembles ?_ (.forEach (p := fun c' => c'.membership.user = c.membership.user) ?_
    fun c' hc' user huser => ⟨hc', moves_connectTo c' _ ?_⟩)
  · exact ⟨rfl, rfl, rfl, rfl, rfl, rfl⟩
  · rfl
  · rw [hc']
    exact Membership.ne_user_of_mem_newPeers huser

/-- The gallery changes, and that is published. -/
theorem moves_change (change : Gallery.Change) {c' : Call}
    (h : Resembles { c with gallery := (c.gallery.apply change).value } c')
    (hslot : ∀ slot t raw, change = .addTrack slot t raw → c.mesh.contains slot.peer) :
    Moves c ((c.gallery.apply change) >>= fun _ => c'.publishStreams >>= fun _ => pure c') :=
  (Move.change change h hslot ((c.gallery.within_apply change).widen (by decide)) rfl).moves

theorem moves_signal (sender : UserId) (s : Signal) :
    Moves c (c.onAdmitted (.signal sender s)) := by
  rw [onAdmitted]
  unfold Mesh.signal
  split
  · exact .pass (.bind (.bind (within_count _) (.pure _)) (.pure _)) (by decide)
      ⟨rfl, rfl, rfl, rfl, rfl, rfl⟩
  · rename_i l hl
    have htell : Emits (Within Part.asides)
        (c.board.tell (.participant sender) l.number (.signal s)) :=
      (Switchboard.within_tell _ _ _ _).widen (by decide)
    exact (Move.phase hl Phase.afterSignal_ne_closed htell).moves

theorem moves_onAdmitted (m : Incoming) : Moves c (c.onAdmitted m) := by
  cases m with
  | roster r => exact c.moves_onRoster r
  | signal sender s => exact c.moves_signal sender s
  | announcements sender batch =>
    exact c.moves_change (.announce sender batch) ⟨rfl, rfl, rfl, rfl, rfl, rfl⟩ fun _ _ _ h => by
      cases h
  | hangUp user =>
    exact c.moves_change (.unassociate user) ⟨rfl, rfl, rfl, rfl, rfl, rfl⟩ fun _ _ _ h => by
      cases h
  | roomCreated creator =>
    exact .pass (.bind (.forSome c.within_send _) (.pure _)) (by decide)
      ⟨rfl, rfl, rfl, rfl, rfl, rfl⟩
  | recordOutcome r =>
    rw [onAdmitted]
    split
    · exact c.moves_applyRecording _ _
    · exact .none c

theorem moves_onRelay (e : Relay.Event) : Moves c (c.onRelay e) := by
  cases e with
  | connected =>
    exact .pass ((within_notify _ _).also (.bind (c.within_send _) (.pure _))) (by decide)
      ⟨rfl, rfl, rfl, rfl, rfl, rfl⟩
  | disconnected =>
    rw [onRelay]
    split
    · exact .pass (.bind (within_notify _ _) (.pure _)) (by decide)
        ⟨rfl, rfl, rfl, rfl, rfl, rfl⟩
    · exact .none c
  | message m =>
    rw [onRelay, onMessage]
    split
    · exact c.moves_onAdmitted m
    · exact .pass (.bind (within_count _) (.pure _)) (by decide) (.refl c)

/-! ### Reports and replies -/

theorem moves_onTrack {user : UserId} (hu : c.mesh.contains user) (t : Track) (stream : StreamId)
    (mid : Mid) : Moves c (c.onTrack user t stream mid) :=
  c.moves_change (.addTrack ⟨user, mid⟩ t stream) ⟨rfl, rfl, rfl, rfl, rfl, rfl⟩ fun _ _ _ h => by
    cases h
    exact hu

theorem moves_onMuted (user : UserId) (id : TrackId) : Moves c (c.onMuted user id) := by
  unfold onMuted
  split
  · exact c.moves_change (.removeTrack id) ⟨rfl, rfl, rfl, rfl, rfl, rfl⟩ fun _ _ _ h => by cases h
  · exact .none c

/-- A report that ends the connection: whichever phase is noted, the connection is forgotten. -/
theorem moves_tearDown {user : UserId} {l : Line} (hl : c.mesh.lines.get? user = some l) (p : Phase)
    (reason : CloseReason) :
    Moves c (tearDown { c with mesh := ⟨c.mesh.lines.insert user { l with phase := p }⟩ } user
      reason) := by
  have hget : (c.mesh.lines.insert user { l with phase := p }).get? user =
      some { l with phase := p } := by simp
  unfold tearDown Mesh.close
  dsimp only
  rw [hget]
  have hbetween : Emits (Within (.gallery :: Part.asides)) (count (.peersClosed reason) >>= fun _ =>
      c.gallery.removePeer user) :=
    ((within_count _).also (c.gallery.within_apply (.removePeer user))).widen (by decide)
  have hmove := (Move.tearDown hl hbetween rfl).moves
  rw [← Table.erase_insert] at hmove
  exact hmove

/-- A report of a connection: the connection goes into another phase first. -/
theorem onReport_of_get? {user : UserId} {l : Line} (hl : c.mesh.lines.get? user = some l)
    (r : Report) : c.onReport (.participant user) r = onPeerReport { c with
      mesh := ⟨c.mesh.lines.insert user { l with phase := l.phase.after r }⟩ } user r := by
  unfold onReport Mesh.report
  dsimp only
  rw [hl]

theorem onReport_of_get?_eq_none {user : UserId} (hl : c.mesh.lines.get? user = none) (r : Report) :
    c.onReport (.participant user) r = pure c := by
  unfold onReport Mesh.report
  dsimp only
  rw [hl]

theorem moves_onReport (key : Key) (r : Report) : Moves c (c.onReport key r) := by
  cases key with
  | recording => exact c.moves_onRecordingReport r
  | participant user =>
    cases hl : c.mesh.lines.get? user with
    | none => exact c.onReport_of_get?_eq_none hl r ▸ .none c
    | some l =>
      rw [c.onReport_of_get? hl]
      -- all but a failure and the end go on from a connection that is in another phase
      have hgoOn (hfailed : ∀ e, r ≠ .failed e) (hclosed : r ≠ .closed) {o : Outcome Call}
          (ho : Moves { c with
            mesh := ⟨c.mesh.lines.insert user { l with phase := l.phase.after r }⟩ } o) :
          Moves c o :=
        have hphase := Move.phase hl (fun hp => Phase.after_ne_closed hp hfailed hclosed)
          fun _ he => absurd he List.not_mem_nil
        .cons hphase ho
      have hu :
          Mesh.contains ⟨c.mesh.lines.insert user { l with phase := l.phase.after r }⟩ user := by
        simp [Mesh.contains, Table.contains]
      cases r with
      | failed e => exact c.moves_tearDown hl _ _
      | closed => exact c.moves_tearDown hl _ _
      | signal s =>
        exact hgoOn (by simp) (by simp)
          (.pass (.bind (within_send _ _) (.pure _)) (by decide) (.refl _))
      | connected => exact hgoOn (by simp) (by simp) (.none _)
      | renegotiating => exact hgoOn (by simp) (by simp) (.none _)
      | track t stream mid =>
        refine hgoOn (by simp) (by simp) (moves_onTrack _ ?_ t stream mid)
        exact hu
      | unmuted t stream mid =>
        refine hgoOn (by simp) (by simp) (moves_onTrack _ ?_ t stream mid)
        exact hu
      | muted id => exact hgoOn (by simp) (by simp) (moves_onMuted _ user id)
      | data bytes =>
        exact hgoOn (by simp) (by simp)
          (.pass (.bind (within_data _ _) (.pure _)) (by decide) (.refl _))

theorem moves_onReply (session : Nat) (result : Except Recorder.JoinError Signal) :
    Moves c (c.onReply session result) :=
  .pass ((Recorder.within_reply _ _ _ _).also
    (.bind (.forSome (fun _ => within_notify _ _) _) (.pure _))) (by decide) (.refl c)

/-! ### The participant -/

theorem moves_dial (now ticket : Nat) (nickname : String) : Moves c (c.dial now ticket nickname) :=
  (c.moves_settleCounted _ _).bind
    (.pass (.bind (within_send _ _) (.pure _)) (by decide) ⟨rfl, rfl, rfl, rfl, rfl, rfl⟩)

theorem moves_onDeadline : Moves c c.onDeadline := by
  unfold onDeadline
  split
  · exact .none c
  · refine .after (within_notify _ _) (by decide) (.of_resembles ?_ (moves_settleCounted _ _ _))
    exact ⟨rfl, rfl, rfl, rfl, rfl, rfl⟩

/-! ### The release -/

theorem effects_stopRecording : (c.stopRecording true).effects =
    match c.recorder.session with
    | none => []
    | some s => [.line (.destroyed s.line), .measured (.set .recordingLegs 0),
        .published (.recording false)] := by
  unfold stopRecording Recorder.stop
  cases c.recorder.session <;> rfl

/-- The release opens no connection, destroys all that the call holds on to, publishes that the
recording ended, if there was one, and does to URLs what the gallery does. -/
theorem views_release : Effect.opened (c.release true).effects = [] ∧
    Effect.destroyed (c.release true).effects = c.held ∧
    Effect.recordings (c.release true).effects = (if c.recorder.active then [false] else []) ∧
    Effect.urls (c.release true).effects = Effect.urls c.gallery.reset.effects := by
  have heffects : (c.release true).effects = (c.mesh.closeAll .hangUp).effects ++
      ((c.stopRecording true).effects ++ (c.gallery.reset.effects ++ [])) := rfl
  have hclose := c.mesh.within_closeAll .hangUp
  have hreset : Emits (Within [.gallery, .metrics]) c.gallery.reset :=
    c.gallery.within_apply .reset
  rw [heffects, effects_stopRecording]
  simp only [Effect.opened_append, Effect.destroyed_append, Effect.recordings_append,
    Effect.urls_append, Mesh.destroyed_closeAll, Effect.opened_eq_nil hclose (by decide),
    Effect.recordings_eq_nil hclose (by decide), Effect.urls_eq_nil hclose (by decide)]
  rw [Effect.opened_eq_nil hreset (by decide), Effect.destroyed_eq_nil hreset (by decide),
    Effect.recordings_eq_nil hreset (by decide)]
  unfold Recorder.active held
  cases c.recorder.session with
  | none => exact ⟨rfl, rfl, rfl, List.append_nil _⟩
  | some s => exact ⟨rfl, rfl, rfl, List.append_nil _⟩

theorem mesh_release (loud : Bool) : (c.release loud).value.mesh = .empty :=
  congrArg Prod.fst (c.mesh.value_closeAll .hangUp)

/-- There is no recording after the release, and no other one began. -/
theorem recorder_release (loud : Bool) :
    (c.release loud).value.recorder = { c.recorder with session := none } := by
  change c.recorder.stop.value.1 = _
  unfold Recorder.stop
  split
  · rename_i hnone
    rw [value_pure, ← hnone]
  · rfl

/-- Everything is released, and that is published. -/
theorem moves_release : Moves c (c.release true >>= fun c =>
    publishStreams { c with isInitiator := none } >>= fun _ =>
      pure { c with isInitiator := none }) := by
  obtain ⟨ho, hd, hr, hurls⟩ := c.views_release
  have hsession : (c.release true).value.recorder.session = none := by rw [recorder_release]
  have hstarted : (c.release true).value.recorder.started = c.recorder.started := by
    rw [recorder_release]
  have hmove : Move c ⟨{ (c.release true).value with isInitiator := none },
      (c.release true).effects ++ [.published (.streams c.gallery.reset.value.snapshot)]⟩ :=
    .release rfl rfl (c.mesh_release true) hsession hstarted rfl ho hd hr hurls
  exact hmove.moves

theorem moves_hangUp : Moves c c.hangUp := by
  refine .after (within_send _ _) (by decide) (.of_resembles ?_
    ((moves_settleDial _ _).bind (moves_release _)))
  exact ⟨rfl, rfl, rfl, rfl, rfl, rfl⟩

/-! ### Captured streams -/

/-- The recorder follows the captured streams and goes on with its session. -/
theorem resembles_follow {α : Type} (g : Gallery) (o : Outcome α) :
    Resembles { c with gallery := g }
      { c with recorder := (c.recorder.follow c.board o).value.1, gallery := g } where
  user := rfl
  gallery := rfl
  mesh := rfl
  session := Recorder.follow_keeps (p := fun r => r.session.map Recorder.Session.numbers)
    (fun r s legs hs => by rw [hs]; rfl) _ _ _
  started := Recorder.follow_keeps (p := Recorder.started) (fun _ _ _ _ => rfl) _ _ _
  opened := rfl

theorem moves_addLocal (type : StreamType) (stream : Stream) :
    Moves c ⟨(c.addLocal type stream).value.1, (c.addLocal type stream).effects⟩ := by
  have hbefore : Emits (Within [.command]) (forSome (c.gallery.locals.get? type) fun before =>
      c.mesh.tellAll c.board (.removeStream before.stream)) :=
    .forSome (fun _ => Mesh.within_tellAll _ _ _) _
  have hfollow := Recorder.within_follow c.recorder c.board
    (c.gallery.emits_addLocal c.recorder.active type stream)
  have hadd := c.mesh.within_tellAll c.board (.addStream stream)
  have hchange : Move c ⟨(c.addLocal type stream).value.1,
      ((forSome (c.gallery.locals.get? type) fun before =>
        c.mesh.tellAll c.board (.removeStream before.stream)).effects ++
      ((c.recorder.follow c.board
        (c.gallery.addLocal c.recorder.active type stream)).effects ++
      (c.mesh.tellAll c.board (.addStream stream)).effects)) ++
        [.published (.streams (c.addLocal type stream).value.1.gallery.snapshot)]⟩ := by
    refine .change (.addLocal c.recorder.active type stream) (c.resembles_follow _ _)
      (fun _ _ _ h => by cases h) ?_ ?_
    · exact List.forall_mem_append.2 ⟨hbefore.widen (by decide), List.forall_mem_append.2
        ⟨hfollow.widen (by decide), hadd.widen (by decide)⟩⟩
    · rw [Effect.urls_append, Effect.urls_append, Effect.urls_eq_nil hbefore (by decide),
        Recorder.urls_follow, Effect.urls_eq_nil hadd (by decide), List.nil_append, List.append_nil]
      exact congrArg Effect.urls (effects_map _ _).symm
  rw [List.append_assoc, List.append_assoc] at hchange
  exact hchange.moves

theorem moves_removeLocal (type : StreamType) :
    Moves c ⟨(c.removeLocal type).value.1, (c.removeLocal type).effects⟩ := by
  have hfollow :=
    Recorder.within_follow c.recorder c.board (c.gallery.emits_removeLocal c.recorder.active type)
  cases hm : c.gallery.locals.get? type with
  | none =>
    unfold removeLocal
    rw [Gallery.removeLocal_of_none _ hm]
    exact .none c
  | some m =>
    have hsome : (c.gallery.removeLocal c.recorder.active type).value.2 = some m := by
      rw [Gallery.value_removeLocal _ hm]
    have hremove := c.mesh.within_tellAll c.board (.removeStream m.stream)
    have heffects : (c.removeLocal type).effects =
        ((c.recorder.follow c.board (c.gallery.removeLocal c.recorder.active type)).effects ++
          (c.mesh.tellAll c.board (.removeStream m.stream)).effects) ++
            [.published (.streams (c.removeLocal type).value.1.gallery.snapshot)] := by
      rw [List.append_assoc]
      change _ ++ ((forSome (c.gallery.removeLocal c.recorder.active type).value.2 _).effects ++ [])
        = _
      rw [hsome, List.append_nil]
      rfl
    rw [heffects]
    refine (Move.change (.removeLocal c.recorder.active type) (c.resembles_follow _ _)
      (fun _ _ _ h => by cases h) ?_ ?_).moves
    · exact List.forall_mem_append.2 ⟨hfollow.widen (by decide), hremove.widen (by decide)⟩
    · rw [Effect.urls_append, Recorder.urls_follow, Effect.urls_eq_nil hremove (by decide),
        List.append_nil]
      exact congrArg Effect.urls (effects_map _ _).symm

/-- What the participant asks for is answered when it is done. -/
theorem moves_answer {α : Type} {o : Outcome (Call × α)} (ho : Moves c ⟨o.value.1, o.effects⟩)
    (ticket : Nat) (answer : α → Answer) :
    Moves c (o >>= fun p => emit (.answered ticket (answer p.2)) >>= fun _ => pure p.1) :=
  ho.bind (f := fun c => emit (.answered ticket (answer o.value.2)) >>= fun _ => pure c)
    (.pass (.bind (within_answer _ _) (.pure _)) (by decide) (.refl _))

theorem moves_onIntent (now ticket : Nat) (i : Intent) : Moves c (c.onIntent now ticket i) := by
  cases i with
  | dial nickname => exact c.moves_dial now ticket nickname
  | hangUp =>
    exact c.moves_hangUp.bind (.pass (.bind (within_answer _ _) (.pure _)) (by decide) (.refl _))
  | toggleRecord =>
    exact .pass ((c.within_send _).also (.bind (within_answer _ _) (.pure _))) (by decide) (.refl c)
  | addLocal type stream => exact c.moves_answer (c.moves_addLocal type stream) ticket .installed
  | removeLocal type => exact c.moves_answer (c.moves_removeLocal type) ticket .removed
  | trackChanged type t =>
    have hchange : Move c ⟨{ c with gallery := c.gallery.setMirror type t },
        [] ++ [.published (.streams (c.gallery.setMirror type t).snapshot)]⟩ :=
      .change (.setMirror type t) ⟨rfl, rfl, rfl, rfl, rfl, rfl⟩ (fun _ _ _ h => by cases h)
        (fun _ he => absurd he List.not_mem_nil) rfl
    exact hchange.moves.bind (f := fun c => emit (.answered ticket .done) >>= fun _ => pure c)
      (.pass (.bind (within_answer _ _) (.pure _)) (by decide) (.refl _))
  | getStatus => exact .pass (.bind (within_answer _ _) (.pure _)) (by decide) (.refl c)

/-! ### All inputs -/

/-- Every moment leads to what it leads to by moves. -/
theorem moves_meet (m : Moment) : Moves c (c.meet m) := by
  have hrefusals : Resembles c { c with board := { c.board with refusals := m.refusals } } :=
    ⟨rfl, rfl, rfl, rfl, rfl, rfl⟩
  refine .of_resembles hrefusals ?_
  unfold meet react
  split
  · exact moves_onRelay _ _
  · exact moves_onReport _ _ _
  · exact moves_onReply _ _ _
  · exact moves_onIntent _ _ _ _
  · exact moves_onDeadline _

/-- Every history leads to what it leads to by moves. -/
theorem moves_run (moments : List Moment) : Moves c (c.run moments) :=
  .forEach (p := fun _ => True) trivial fun c _ m _ => ⟨trivial, c.moves_meet m⟩

end VideoCall.Call

import VideoCall.Call.History
import VideoCall.Proofs.Recorder.Effects

/-!
# What the steps of a call bear on

Each small step of a call bears on few things: it words something, sends it, answers it, or passes
it on to a connection. A reaction is put together from such steps.

## Main results

* `Call.within_send`, `Call.within_settleDial`, … : what each step bears on.
* `Peer.Mesh.within_closeAll` : what the end of all connections bears on.
* `Call.value_settleDial`, `Call.value_settleCounted` : only the pending dial is settled.
* `Call.exists_value_onRoster` : what a roster leads to.
-/

namespace VideoCall

open Outcome Peer Wire Media
open Effect (Within)

/-! ### Connections -/

namespace Peer.Mesh

theorem within_tellAll (m : Mesh) (b : Switchboard) (command : Command) :
    Emits (Within [.command]) (m.tellAll b command) :=
  .forEach (fun () (user, l) _ => (b.within_tell (.participant user) l.number command).map _) _

theorem within_create (m : Mesh) (b : Switchboard) (user : UserId) (initiator : Bool)
    (streams : List Stream) :
    Emits (Within [.opening, .command, .metrics]) (m.create b user initiator streams) := by
  unfold create Switchboard.dial
  split
  · exact .pure _
  · split
    · have hrefused : Emits (Within [.opening, .command, .metrics])
          (emit (.line (.refused (.participant user)
            ⟨initiator, b.iceServers, true, streams⟩))) :=
        (Switchboard.within_refused _ _).widen (by decide)
      exact .bind (.bind hrefused (.pure _)) (.pure _)
    · exact .bind (.bind (.emit List.mem_cons_self) (.pure _))
        (.bind ((within_count _).widen (by decide)) (.pure _))

theorem within_signal (m : Mesh) (b : Switchboard) (user : UserId) (s : Signal) :
    Emits (Within [.command, .metrics]) (m.signal b user s) := by
  unfold signal
  split
  · exact .bind ((within_count _).widen (by decide)) (.pure _)
  · exact .bind ((b.within_tell _ _ _).widen (by decide)) (.pure _)

theorem within_close (m : Mesh) (user : UserId) (reason : CloseReason) :
    Emits (Within [.destruction, .metrics]) (m.close user reason) := by
  unfold close
  split
  · exact .pure _
  · exact (Switchboard.within_destroy _).also (.bind (within_count _) (.pure _))

theorem within_closeAll (m : Mesh) (reason : CloseReason) :
    Emits (Within [.destruction, .metrics]) (m.closeAll reason) :=
  .bind (.forEach (fun m user _ => (within_close m user reason).map _) _) (.pure _)

end Peer.Mesh

/-! ### Telling and answering -/

namespace Call

variable (c : Call)

theorem within_notify (level : Level) (message : String) :
    Emits (Within [.words]) (notify level message) :=
  .emit (List.mem_singleton_self _)

theorem within_data (user : UserId) (bytes : List UInt8) :
    Emits (Within [.words]) (emit (.published (.data user bytes))) :=
  .emit (List.mem_singleton_self _)

theorem within_publishStreams : Emits (Within [.streams]) c.publishStreams :=
  .emit (List.mem_singleton_self _)

theorem within_answer (ticket : Nat) (a : Answer) :
    Emits (Within [.answer]) (emit (.answered ticket a)) :=
  .emit (List.mem_singleton_self _)

theorem within_send (m : Outgoing) : Emits (Within [.relay]) (c.send m) := by
  have hsent : Emits (Within [.relay]) (emit (.sent ⟨c.membership.room, m⟩)) :=
    .emit (List.mem_singleton_self _)
  exact hsent.when _

theorem within_tellRefusal (created : Except Failure Bool) :
    Emits (Within [.words]) (tellRefusal created) := by
  cases created
  · exact within_notify _ _
  · exact .pure _

theorem within_settleDial (a : Answer) : Emits (Within [.answer]) (c.settleDial a) := by
  unfold settleDial
  split
  · exact .pure _
  · exact .bind (within_answer _ _) (.pure _)

theorem value_settleDial (a : Answer) : (c.settleDial a).value = { c with pending := none } := by
  unfold settleDial
  split
  · rename_i h
    rw [value_pure, ← h]
  · rfl

theorem within_settleCounted (outcome : DialOutcome) (a : Answer) :
    Emits (Within [.metrics, .answer]) (c.settleCounted outcome a) := by
  unfold settleCounted
  split
  · exact .pure _
  · exact (within_count _).also (c.within_settleDial a)

theorem value_settleCounted (outcome : DialOutcome) (a : Answer) :
    (c.settleCounted outcome a).value = { c with pending := none } := by
  unfold settleCounted
  split
  · rename_i h
    rw [value_pure, ← h]
  · exact c.value_settleDial a

/-! ### Rosters -/

/-- Who comes new changes the mesh and the switchboard only. -/
theorem exists_value_connectEach (initiator : Bool) (users : List UserId) :
    ∃ mesh board, (forEach (fun c user => connectTo c initiator user) users c).value =
      { c with mesh := mesh, board := board } :=
  forEach_induction (p := fun d : Call => ∃ mesh board, d = { c with mesh := mesh, board := board })
    ⟨c.mesh, c.board, rfl⟩ fun _ ⟨_, _, hd⟩ _ _ => hd ▸ ⟨_, _, rfl⟩

/-- The recording follows a roster last. Before that, there are new names, new connections, and no
pending dial. -/
theorem exists_value_onRoster (r : Roster) : ∃ c' : Call,
    (c.onRoster r).value = (c'.applyRecording r.recording (nonempty r.recordUrl)).value ∧
      ∃ mesh board, c' = { c with
        membership := { c.membership with nicknames := r.nicknames }
        isInitiator := some (r.initiator = c.membership.user)
        mesh := mesh
        board := board
        pending := none } := by
  let update := (c.membership.meet r c.mesh.contains).2
  let c₁ : Call := { c with
    membership := { c.membership with nicknames := r.nicknames }
    isInitiator := some update.isInitiator }
  obtain ⟨mesh, board, hconnected⟩ := c₁.exists_value_connectEach update.isInitiator update.newPeers
  refine ⟨{ c₁ with mesh := mesh, board := board, pending := none }, ?_, mesh, board, rfl⟩
  unfold onRoster
  dsimp only [value_bind]
  rw [value_settleCounted]
  exact congrArg (fun d : Call => (applyRecording { d with pending := none } _ _).value) hconnected

end Call

end VideoCall

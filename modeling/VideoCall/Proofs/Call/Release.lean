import VideoCall.Proofs.Call.Accounts
import VideoCall.Proofs.Call.Evolution
import VideoCall.Proofs.Call.Scope
import VideoCall.Proofs.Gallery.Ledger
import VideoCall.Proofs.Gallery.Stopping

/-!
# What is left after a hang-up

When the participant leaves, nothing is left of the call but its settings and the link to the relay.
By then every connection that was ever opened is destroyed, once, whichever way it came to its end,
and every URL that was ever made is released; and every track that the gallery held is stopped,
whether it was captured here, rendered, or only sat in a slot.

## Main definitions

* `Gallery.handles` : the tracks that a gallery holds.
* `Call.Bare` : a call holds on to nothing.

## Main results

* `Gallery.stops_reset` : the tracks that are told to stop when a gallery is reset.
* `Call.bare_meet_hangUp` : a call is bare after a hang-up.
* `Call.released_hangUp` : what became by then of all connections, URLs and tracks.
-/

namespace VideoCall

open Outcome Peer Wire Media

/-! ### Tracks -/

/-- The tracks that a gallery holds: those captured here, those that are rendered, and those that
sit in slots. -/
def Gallery.handles (g : Gallery) : List Track :=
  g.locals.values.flatMap (·.stream.tracks) ++
    ((g.users.values.flatMap (·.streams)).flatMap (·.stream.tracks) ++
      g.slots.values.map (·.track))

namespace Gallery

theorem stops_forEach {ι : Type} {step : Unit → ι → Outcome Unit} {f : ι → List Track}
    (h : ∀ i, Effect.stops (step () i).effects = f i) (is : List ι) :
    Effect.stops (forEach step is ()).effects = is.flatMap f := by
  induction is with
  | nil => rfl
  | cons i is ih =>
    rw [forEach_cons, effects_bind, Effect.stops_append, h, List.flatMap_cons]
    exact congrArg _ ih

/-- All tracks that a gallery holds are told to stop when it is reset. -/
theorem stops_reset (g : Gallery) : Effect.stops g.reset.effects = g.handles := by
  have hremote : ∀ r : RemoteStream, Effect.stops (releaseRemote r).effects = r.stream.tracks := by
    intro r
    unfold releaseRemote
    rw [effects_bind, Effect.stops_append, stops_stopAll, stops_revoke, List.append_nil]
  have hslots : Effect.stops (g.slots.values.map fun h => .stopped h.track) =
      g.slots.values.map (·.track) := by
    rw [← Effect.stops_map_stopped (g.slots.values.map (·.track)), List.map_map]
    rfl
  have heffects : g.reset.effects =
      (forEach (fun () m => releaseLocal m) g.locals.values ()).effects ++
        ((forEach (fun () r => releaseRemote r) (g.users.values.flatMap (·.streams)) ()).effects ++
          (g.slots.values.map (fun h => Effect.stopped h.track) ++
            ((empty g.urls).showCount.effects ++ []))) := rfl
  have hcount : Effect.stops ((empty g.urls).showCount.effects ++ []) = [] := rfl
  rw [heffects, Effect.stops_append, Effect.stops_append, Effect.stops_append, hcount,
    List.append_nil, stops_forEach stops_releaseLocal, stops_forEach hremote, hslots]
  rfl

end Gallery

namespace Call

variable (c : Call)

/-! ### The state -/

/-- A call holds on to nothing: there is no connection, no recording, no stream and no announcement,
and the participant is not ready and waits for nothing. -/
structure Bare (c : Call) : Prop where
  mesh : c.mesh = .empty
  session : c.recorder.session = none
  legs : c.recorder.legs = []
  gallery : c.gallery = .empty c.gallery.urls
  active : c.membership.active = false
  isInitiator : c.isInitiator = none
  pending : c.pending = none

theorem stops_release (loud : Bool) :
    Effect.stops (c.release loud).effects = c.gallery.handles := by
  have heffects : (c.release loud).effects = (c.mesh.closeAll .hangUp).effects ++
      ((stopRecording { c with mesh := (c.mesh.closeAll .hangUp).value.1 } loud).effects ++
        (c.gallery.reset.effects ++ [])) := rfl
  rw [heffects, List.append_nil, Effect.stops_append, Effect.stops_append, Gallery.stops_reset,
    Effect.stops_eq_nil (c.mesh.within_closeAll .hangUp) (by decide),
    Effect.stops_eq_nil (within_stopRecording _ loud) (by decide)]
  rfl

/-- At a hang-up everything is released, once the farewell is sent and the pending dial answered.
No track is told to stop beside that. -/
theorem exists_release_hangUp : ∃ c' : Call,
    c' = { c with membership := c.membership.stop, pending := none } ∧
    c.hangUp.value = { (c'.release true).value with isInitiator := none } ∧
    Effect.stops c.hangUp.effects = Effect.stops (c'.release true).effects := by
  have hsettled := value_settleDial { c with membership := c.membership.stop }
    (.failed .dialSuperseded)
  refine ⟨(settleDial { c with membership := c.membership.stop } (.failed .dialSuperseded)).value,
    hsettled, rfl, ?_⟩
  generalize hc' : settleDial { c with membership := c.membership.stop } _ = o
  have heffects : c.hangUp.effects = (c.send c.membership.farewell).effects ++ (o.effects ++
      ((o.value.release true).effects ++
        ((publishStreams { (o.value.release true).value with isInitiator := none }).effects ++
          []))) := by
    rw [← hc']
    rfl
  rw [heffects, List.append_nil, Effect.stops_append, Effect.stops_append, Effect.stops_append,
    Effect.stops_eq_nil (c.within_send _) (by decide),
    Effect.stops_eq_nil (hc' ▸ within_settleDial _ _) (by decide),
    Effect.stops_eq_nil (within_publishStreams _) (by decide), List.append_nil]
  rfl

/-- Nothing is left of a call after a hang-up. -/
theorem bare_hangUp : c.hangUp.value.Bare := by
  obtain ⟨c', hc', hvalue, -⟩ := c.exists_release_hangUp
  have hsession : (c'.release true).value.recorder.session = none := by
    rw [recorder_release]
  rw [hvalue]
  constructor
  · exact c'.mesh_release true
  · exact hsession
  · unfold Recorder.legs
    rw [hsession]
    rfl
  · rfl
  · exact congrArg (fun c : Call => c.membership.active) hc'
  · rfl
  · exact congrArg (fun c : Call => c.pending) hc'

/-- The tracks that are told to stop at a hang-up are those that the gallery holds. -/
theorem stops_hangUp : Effect.stops c.hangUp.effects = c.gallery.handles := by
  obtain ⟨c', hc', -, hstops⟩ := c.exists_release_hangUp
  rw [hstops, stops_release, hc']

/-! ### Histories -/

section Meet

variable {m : Moment} {ticket : Nat} (hm : m.input = .intent ticket .hangUp)
include hm

theorem bare_meet_hangUp : (c.meet m).value.Bare := by
  unfold meet react
  rw [hm]
  exact bare_hangUp _

theorem stops_meet_hangUp : Effect.stops (c.meet m).effects = c.gallery.handles := by
  unfold meet react
  rw [hm]
  refine (Effect.stops_append _ _).trans ?_
  rw [stops_hangUp]
  exact List.append_nil _

end Meet

theorem Bare.held_eq_nil {c : Call} (h : c.Bare) : c.held = [] := by
  unfold held
  rw [h.mesh, h.session]
  rfl

/-- When the participant leaves, nothing is left of the call, whatever came before. By then every
connection that was opened was destroyed, once; every URL was released as often as it was made, so
once if none is made twice; and the tracks that the gallery held are stopped. -/
theorem released_hangUp (s : Settings) (room : RoomId) (user : UserId) (urls : UrlSource)
    (moments : List Moment) (now : Nat) (refusals : Refusals) (ticket : Nat) :
    let c := ((fresh s room user urls .none).run moments).value
    let o := (fresh s room user urls .none).run
      (moments ++ [⟨now, refusals, .intent ticket .hangUp⟩])
    let created := UrlEvent.created (Effect.urls o.effects)
    let released := UrlEvent.released (Effect.urls o.effects)
    o.value.Bare ∧
    (∀ n key, (n, key) ∈ Effect.opened o.effects → (Effect.destroyed o.effects).count n = 1) ∧
    (created.Perm released ∧ (created.Nodup → ∀ url ∈ created, released.count url = 1)) ∧
    ∀ t ∈ c.gallery.handles, (Footprint.none.noteAll o.effects).stopped.contains t = true := by
  intro c o created released
  have hvalue : o.value = (c.meet ⟨now, refusals, .intent ticket .hangUp⟩).value :=
    value_run_concat _ moments _
  have hbare : o.value.Bare := hvalue ▸ bare_meet_hangUp c rfl
  have haccounted : Accounted o.value o.effects := accounted_run s room user urls _
  have hperm : created.Perm released := by
    obtain ⟨changes, hgallery, hurls⟩ := evolves_run (fresh s room user urls .none)
      (moments ++ [⟨now, refusals, .intent ticket .hangUp⟩])
    -- the gallery carries no URL any more, so those that were made are those that were released
    have hcarried : Gallery.carried ((Gallery.empty urls).run changes).value = 0 := by
      change o.value.gallery = ((Gallery.empty urls).run changes).value at hgallery
      rw [← hgallery, hbare.gallery]
      rfl
    have hevents : Effect.urls o.effects =
        Effect.urls ((Gallery.empty urls).run changes).effects := hurls
    have hsettles := Gallery.settles_run urls changes
    rw [hcarried, ← hevents] at hsettles
    have hmade := hsettles.created_eq
    rw [Multiset.zero_add] at hmade
    exact Multiset.coe_eq_coe.1 hmade
  refine ⟨hbare, fun n key hn => haccounted.count_destroyed hbare.held_eq_nil hn,
    ⟨hperm, fun hnew url hurl => ?_⟩, fun t ht => ?_⟩
  · rw [← hperm.count_eq]
    exact List.count_eq_one_of_mem hnew hurl
  · have heffects : o.effects = ((fresh s room user urls .none).run moments).effects ++
        (c.meet ⟨now, refusals, .intent ticket .hangUp⟩).effects :=
      effects_run_concat _ moments _
    have hstops : Effect.stops (c.meet ⟨now, refusals, .intent ticket .hangUp⟩).effects =
        c.gallery.handles := c.stops_meet_hangUp rfl
    refine Effect.contains_stopped_noteAll (Or.inr ?_)
    rw [heffects, Effect.stops_append, hstops]
    exact List.mem_append_right _ ht

end Call

end VideoCall

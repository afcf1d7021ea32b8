import VideoCall.Proofs.Gallery.Effects
import VideoCall.Proofs.Metric

/-!
# What a gallery shows of itself

A gallery shows how many streams there are at the end of whatever may have changed that, and counts
each track that it withdraws. In the middle of a change the gauge may lag behind: a stream whose
only track moves was shown as gone in between. At the end of a change the gauge is right, if it was
right before, whether the change made a difference or passed over something unknown.

## Main definitions

* `Gallery.Gauged` : after an outcome a gauge reads how many streams there are.

## Main results

* `Gallery.gauged_apply` : after every change the gauge reads how many streams there are.
* `Gallery.count_withdrawn_announce` : a batch counts each rendered track that it does not describe.
* `Gallery.count_withdrawn_apply` : no other change counts a track as withdrawn.
-/

namespace VideoCall

open Outcome Media
open Effect (Touches)

/-! ### Metrics of a gallery -/

theorem Effect.OfTracks.touches {e : Effect} (h : e.OfTracks) :
    e.Touches [.gauge .remoteStreams] := by
  cases e with
  | measured m =>
    cases m with
    | count c => exact h.elim
    | set g n =>
      cases g with
      | remoteStreams => exact List.mem_singleton_self _
      | recordingLegs => exact h.elim
  | _ => trivial

theorem Effect.OfCaptures.touches {e : Effect} (h : e.OfCaptures) (ms : List Metric) :
    e.Touches ms := by
  cases e with
  | measured m => exact h.elim
  | _ => trivial

namespace Gallery

theorem touches_removeTrack (g : Gallery) (id : TrackId) :
    Emits (Touches [.gauge .remoteStreams]) (g.removeTrack id) :=
  (g.ofTracks_removeTrack id).mono fun _ => Effect.OfTracks.touches

theorem touches_followAll (g : Gallery) (news : List (Slot × Wire.Announcement)) :
    Emits (Touches [.gauge .remoteStreams]) (forEach follow news g) :=
  .forEach (fun g e _ => (g.ofTracks_follow e).mono fun _ => Effect.OfTracks.touches) g

/-- No change touches a metric but the number of streams and the count of withdrawn tracks. -/
theorem touches_apply (g : Gallery) (change : Change) :
    Emits (Touches [.gauge .remoteStreams, .counter .tracksWithdrawn]) (g.apply change) := by
  have hwiden {α : Type} {o : Outcome α} (h : Emits (Touches [.gauge .remoteStreams]) o) :
      Emits (Touches [.gauge .remoteStreams, .counter .tracksWithdrawn]) o :=
    h.mono fun _ he => he.widen (by decide)
  by_cases hchange : ∃ sender batch, change = .announce sender batch
  · obtain ⟨sender, batch, rfl⟩ := hchange
    have hwithdraw (g : Gallery) (id : TrackId) :
        Emits (Touches [.gauge .remoteStreams, .counter .tracksWithdrawn]) (g.withdraw id) :=
      (hwiden (g.touches_removeTrack id)).bind
        (.bind (.emit (List.mem_cons_of_mem _ (List.mem_singleton_self _))) (.pure _))
    exact .bind (.forEach (fun g id _ => hwithdraw g id) _) (hwiden (touches_followAll _ _))
  · simp only [not_exists] at hchange
    exact (g.captures_or_tracks_apply hchange).mono fun _ he =>
      he.elim (fun h => h.touches _) fun h => h.touches.widen (by decide)

/-! ### The number of streams -/

theorem streamCount_eq (g : Gallery) :
    g.streamCount = (g.users.values.flatMap Shown.streams).length := by
  rw [streamCount, ← List.sum_eq_foldl, List.length_flatMap]

/-- A gauge that reads `n` before an outcome reads how many streams there are after it. -/
def Gauged (n : Nat) (o : Outcome Gallery) : Prop :=
  (Effect.settings .remoteStreams o.effects).getLastD n = o.value.streamCount

namespace Gauged

variable {g : Gallery} {n : Nat}

/-- The gauge is not set, and the streams on show stay. -/
theorem stay {o : Outcome Gallery} (h : Emits (Touches []) o) (hu : o.value.users = g.users) :
    Gauged g.streamCount o := by
  unfold Gauged streamCount
  rw [Effect.settings_eq_nil h List.not_mem_nil, hu]
  rfl

theorem pure (g : Gallery) : Gauged g.streamCount (pure g) := rfl

theorem bind {o : Outcome Gallery} {f : Gallery → Outcome Gallery} (h : Gauged n o)
    (hf : Gauged o.value.streamCount (f o.value)) : Gauged n (o >>= f) := by
  unfold Gauged at h hf ⊢
  rw [effects_bind, Effect.settings_append, getLastD_append, h, hf]
  rfl

/-- What comes before makes no difference to an outcome that sets the gauge in any case. -/
theorem after {α : Type} {o : Outcome α} {f : α → Outcome Gallery}
    (h : ∀ n, Gauged n (f o.value)) : Gauged n (o >>= f) := by
  unfold Gauged at h ⊢
  rw [effects_bind, Effect.settings_append, getLastD_append]
  exact h _

/-- The gauge is set last. -/
theorem shown (g : Gallery) (n : Nat) : Gauged n (g.showCount >>= fun _ => Pure.pure g) := rfl

theorem forEach {ι : Type} {step : Gallery → ι → Outcome Gallery}
    (h : ∀ g i, Gauged g.streamCount (step g i)) (is : List ι) (g : Gallery) :
    Gauged g.streamCount (forEach step is g) := by
  induction is generalizing g with
  | nil => exact .pure g
  | cons i is ih => exact (h g i).bind (ih _)

end Gauged

/-! ### The changes -/

section Changes

variable (g : Gallery)

theorem gauged_removeTrack (id : TrackId) : Gauged g.streamCount (g.removeTrack id) := by
  unfold removeTrack
  repeat' split
  · exact .pure g
  · exact .stay (.bind (.emit trivial) (.pure _)) rfl
  · exact .pure g
  · exact .after (.shown _)

/-- A track that is put into a slot sets the gauge in any case. -/
theorem gauged_place (slot : Slot) (t : Track) (a : Attribution) (n : Nat) :
    Gauged n (g.place slot t a) :=
  .after fun _ => .after (.shown _)

theorem gauged_addTrack (slot : Slot) (t : Track) (raw : StreamId) :
    Gauged g.streamCount (g.addTrack slot t raw) := by
  dsimp only [addTrack]
  repeat' split
  · exact g.gauged_place slot t _ _
  · exact .pure g
  · exact .after (gauged_place _ slot t _)

theorem gauged_unassociate (user : UserId) : Gauged g.streamCount (g.unassociate user) := by
  unfold unassociate
  split
  · exact .pure g
  · exact .after (.shown _)

theorem gauged_follow (news : Slot × Wire.Announcement) :
    Gauged g.streamCount (g.follow news) := by
  dsimp only [follow]
  repeat' split
  · exact .pure g
  · exact g.gauged_addTrack _ _ _
  · exact .pure g
  · exact (g.gauged_removeTrack _).bind (gauged_addTrack _ _ _ _)

theorem gauged_announce (sender : UserId) (batch : List Wire.Announcement) :
    Gauged g.streamCount (g.announce sender batch) := by
  have hwithdraw (g : Gallery) (id : TrackId) : Gauged g.streamCount (g.withdraw id) := by
    have hcounted (g' : Gallery) :
        Gauged g'.streamCount (count .tracksWithdrawn >>= fun _ => Pure.pure g') := rfl
    exact (g.gauged_removeTrack id).bind (hcounted _)
  exact (Gauged.forEach hwithdraw _ g).bind (.forEach gauged_follow _ _)

theorem gauged_reset (n : Nat) : Gauged n g.reset :=
  .after fun _ => .after fun _ => .after (.shown _)

/-- After every change the gauge reads how many streams there are. -/
theorem gauged_apply (change : Change) : Gauged g.streamCount (g.apply change) := by
  cases change with
  | addTrack slot t raw => exact g.gauged_addTrack slot t raw
  | removeTrack id => exact g.gauged_removeTrack id
  | unassociate user => exact g.gauged_unassociate user
  | removePeer peer => exact .after (.shown _)
  | announce sender batch => exact g.gauged_announce sender batch
  | reset => exact g.gauged_reset _
  | addLocal recording type stream =>
    have hcaptures := (g.ofCaptures_addLocal recording type stream).map Prod.fst
    exact .stay (hcaptures.mono fun _ he => he.touches _) (users_removeLocal recording g type)
  | removeLocal recording type =>
    have hcaptures := (g.ofCaptures_removeLocal recording type).map Prod.fst
    exact .stay (hcaptures.mono fun _ he => he.touches _) (users_removeLocal recording g type)
  | setMirror type t => exact .stay (.pure _) (users_setMirror g type t)

end Changes

/-! ### Withdrawn tracks -/

/-- A batch counts each rendered track that it does not describe, and nothing else. -/
theorem count_withdrawn_announce (g : Gallery) (sender : UserId)
    (batch : List Wire.Announcement) :
    (Effect.counts (g.announce sender batch).effects).count .tracksWithdrawn =
      (g.undescribed sender (.ofBatch sender batch)).length := by
  have hwithdraw (ids : List TrackId) (g : Gallery) :
      (Effect.counts (forEach withdraw ids g).effects).count .tracksWithdrawn = ids.length := by
    induction ids generalizing g with
    | nil => rfl
    | cons id ids ih =>
      have hnone : (Effect.counts (g.removeTrack id).effects).count .tracksWithdrawn = 0 :=
        Effect.count_eq_zero (g.touches_removeTrack id) (by decide)
      have hone : (g.withdraw id).effects =
          (g.removeTrack id).effects ++ [.measured (.count .tracksWithdrawn)] := rfl
      rw [forEach_cons, effects_bind, Effect.counts_append, List.count_append, ih, hone,
        Effect.counts_append, List.count_append, hnone]
      exact Nat.add_comm _ _
  change (Effect.counts ((forEach withdraw _ g).effects ++ _)).count _ = _
  rw [Effect.counts_append, List.count_append, hwithdraw,
    Effect.count_eq_zero (touches_followAll _ _) (by decide)]
  rfl

/-- Every other change counts no track as withdrawn. -/
theorem count_withdrawn_apply (g : Gallery) {change : Change}
    (hchange : ∀ sender batch, change ≠ .announce sender batch) :
    (Effect.counts (g.apply change).effects).count .tracksWithdrawn = 0 := by
  have htouches : Emits (Touches [.gauge .remoteStreams]) (g.apply change) :=
    (g.captures_or_tracks_apply hchange).mono fun _ he =>
      he.elim (fun h => h.touches _) Effect.OfTracks.touches
  exact Effect.count_eq_zero htouches (by decide)

end Gallery

end VideoCall

import VideoCall.Proofs.Gallery.Consistency
import VideoCall.Proofs.Gallery.Effects

/-!
# Nothing is missed

To take a track out, a gallery looks up the slot in which the track is indexed, the participant and
the stream that the slot is attributed to, and the track in the stream. Each of them might not be
there, and the gallery would note that it missed it. It never does. A change looks things up while
it is only half done, when the gallery is not in order: a slot may still be attributed to no one
while its track is to be replaced, or be gone while its track is not. What is looked up is there all
the same, since the streams follow the slots step by step and the index goes wrong at one slot only,
where nothing is looked up.

## Main definitions

* `Effect.Found` : an effect is not the note that something was missed.
* `Gallery.Finds` : a track is in the stream it is looked up in.

## Main results

* `Gallery.found_detach_iff`, `Gallery.found_removeTrack_iff` : when nothing is missed.
* `Gallery.misses_nothing_run` : nothing is missed in any history.
-/

namespace VideoCall

open Media Outcome

/-- An effect that is not the note that something was missed. -/
def Effect.Found (e : Effect) : Prop := ∀ m, e ≠ .missed m

open Effect (Found OfCaptures)

theorem Effect.OfCaptures.found {e : Effect} (h : e.OfCaptures) : e.Found := by
  rintro m rfl
  exact h

namespace Gallery

/-! ### What is looked up -/

/-- The participant and the stream are there, and the track is in the stream. -/
def Finds (g : Gallery) (a : Attribution) (id : TrackId) : Prop :=
  ∃ x, g.users.get? a.user = some x ∧
    ∃ r, x.streams.find? (fun r => r.id = a.stream) = some r ∧ r.stream.contains id

section Frames

variable (g : Gallery)

theorem found_showCount : Emits Found g.showCount := .emit (by rintro m ⟨⟩)

theorem found_revoke (url : Option Url) : Emits Found (revoke url) :=
  .forSome (fun _ => .emit (by rintro m ⟨⟩)) url

theorem found_attach (a : Attribution) (t : Track) : Emits Found (g.attach a t) := by
  dsimp only [attach]
  split
  · exact .pure _
  · exact .bind (.emit (by rintro m ⟨⟩)) (.pure _)

/-- An outcome that begins with the note that something was missed. -/
theorem not_found_of_missed {α : Type} {o : Outcome α} {m : Missing}
    (h : .missed m ∈ o.effects) : ¬ Emits Found o := fun hfound => hfound _ h m rfl

/-- A detachment misses nothing exactly if it finds the track. -/
theorem found_detach_iff (a : Attribution) (id : TrackId) :
    Emits Found (g.detach a id) ↔ g.Finds a id := by
  unfold detach
  split
  · rename_i hx
    refine iff_of_false (not_found_of_missed List.mem_cons_self) ?_
    rintro ⟨x, hx', -⟩
    cases hx.symm.trans hx'
  · rename_i x hx
    split
    · rename_i hr
      refine iff_of_false (not_found_of_missed List.mem_cons_self) ?_
      rintro ⟨x', hx', r, hr', -⟩
      obtain rfl := Option.some.inj (hx.symm.trans hx')
      cases hr.symm.trans hr'
    · rename_i r hr
      by_cases hc : r.stream.contains id
      · refine iff_of_true ?_ ⟨x, hx, r, hr, hc⟩
        rw [hc]
        exact .bind (.pure _) (.bind (.when (found_revoke _) _) (.pure _))
      · refine iff_of_false ?_ ?_
        · rw [Bool.eq_false_iff.2 hc]
          exact not_found_of_missed List.mem_cons_self
        · rintro ⟨x', hx', r', hr', hc'⟩
          obtain rfl := Option.some.inj (hx.symm.trans hx')
          obtain rfl := Option.some.inj (hr.symm.trans hr')
          exact hc hc'

/-- A track is taken out without missing anything exactly if it is not indexed, or if the slot in
which it is indexed is there and the track is in the stream, if any, that the slot is attributed
to. -/
theorem found_removeTrack_iff (id : TrackId) :
    Emits Found (g.removeTrack id) ↔ ∀ k, g.index.get? id = some k →
      ∃ h, g.slots.get? k = some h ∧ ∀ a, h.attribution = some a → g.Finds a id := by
  unfold removeTrack
  split
  · rename_i hi
    exact iff_of_true (.pure _) fun k hk => nomatch hi.symm.trans hk
  · rename_i k hi
    have hk : ∀ k', g.index.get? id = some k' → k' = k := fun k' hk' =>
      Option.some.inj (hk'.symm.trans hi)
    split
    · rename_i hs
      refine iff_of_false (not_found_of_missed List.mem_cons_self) fun h => ?_
      obtain ⟨x, hx, -⟩ := h k hi
      cases hs.symm.trans hx
    · rename_i x hs
      split
      · rename_i ha
        refine iff_of_true (.pure _) fun k' hk' => ⟨x, hk k' hk' ▸ hs, fun a ha' => ?_⟩
        cases ha.symm.trans ha'
      · rename_i a ha
        have hdetach := found_detach_iff
          { g with slots := g.slots.insert k { x with attribution := none } } a id
        constructor
        · intro h k' hk'
          refine ⟨x, hk k' hk' ▸ hs, fun a' ha' => ?_⟩
          obtain rfl := Option.some.inj (ha.symm.trans ha')
          exact hdetach.1 fun e he => h e (List.mem_append_left _ he)
        · intro h
          obtain ⟨x', hx', hfinds⟩ := h k hi
          obtain rfl := Option.some.inj (hs.symm.trans hx')
          exact .bind (hdetach.2 (hfinds a ha)) (.bind (found_showCount _) (.pure _))

end Frames

/-! ### Tracks are where they are looked up -/

/-- A track of the relation that the streams group is in its stream. -/
theorem Grouped.finds {g : Gallery} {P : UserId → StreamId → Track → Prop} (h : Grouped g.users P)
    {u : UserId} {s : StreamId} {t : Track} (hp : P u s t) : g.Finds ⟨u, s⟩ t.id := by
  cases hx : g.users.get? u with
  | none => exact absurd hp (h.not_of_get?_eq_none hx s t)
  | some x =>
    have hgroups := h.groups_of_get? hx
    obtain ⟨r, hr, he, ht⟩ := (hgroups.mem_iff s t).2 hp
    refine ⟨x, hx, ?_⟩
    cases hfind : x.streams.find? fun r => r.id = s with
    | none => simpa [he] using List.find?_eq_none.1 hfind r hr
    | some r' =>
      -- the stream that is looked up is the one with the track, since they have one id
      have he' : r'.id = s := by simpa using List.find?_some hfind
      obtain rfl : r' = r := List.inj_on_of_nodup_map hgroups.nodup_ids
        (List.mem_of_find?_eq_some hfind) hr (he'.trans he.symm)
      exact ⟨r', rfl, Stream.contains_iff.2 ⟨t, ht, rfl⟩⟩

/-- A track is taken out without missing anything if the slot in which it is indexed holds it, and
the streams group the attributed tracks. -/
theorem Grouped.found_removeTrack {g : Gallery} {id : TrackId}
    (h : Grouped g.users (Attributed g.slots))
    (hidx : ∀ k, g.index.get? id = some k → ∃ x, g.slots.get? k = some x ∧ x.track.id = id) :
    Emits Found (g.removeTrack id) := by
  refine (g.found_removeTrack_iff id).2 fun k hk => ?_
  obtain ⟨x, hx, rfl⟩ := hidx k hk
  refine ⟨x, hx, fun a ha => h.finds ⟨k, ?_⟩⟩
  rw [hx, ← ha]

theorem InOrder.found_removeTrack {g : Gallery} (h : g.InOrder) (id : TrackId) :
    Emits Found (g.removeTrack id) :=
  h.grouped.found_removeTrack fun k => (h.index_iff id k).1

/-! ### Arrivals -/

/-- While a slot waits for a track, nothing is looked up in it. -/
theorem Ready.found_leaveOther {g : Gallery} {slot : Slot} {id : TrackId} (h : g.Ready slot id) :
    Emits Found (g.leaveOther slot id) := by
  unfold leaveOther
  split
  · exact .pure _
  · rename_i before hi
    split
    · exact .pure _
    · rename_i hne
      refine .bind (h.grouped.found_removeTrack fun k hk => ?_) (.pure _)
      obtain rfl := Option.some.inj (hi.symm.trans hk)
      exact (h.index_iff id before hne).1 hi

theorem Ready.found_place {g : Gallery} {slot : Slot} {t : Track} (h : g.Ready slot t.id)
    (a : Attribution) : Emits Found (g.place slot t a) :=
  .bind h.found_leaveOther (.bind (found_attach _ a t) (.bind (found_showCount _) (.pure _)))

namespace InOrder

variable {g : Gallery} (h : g.InOrder)
include h

theorem found_addTrack (slot : Slot) (t : Track) (raw : StreamId) :
    Emits Found (g.addTrack slot t raw) := by
  dsimp only [Gallery.addTrack]
  split
  · rename_i hs
    exact (h.ready hs t.id).found_place _
  · rename_i x hs
    split
    · exact .pure _
    · exact .bind (.bind (h.found_removeTrack _) (.pure _))
        ((h.ready_yieldSlot hs t.id).found_place _)

/-! ### Announcements -/

theorem found_follow (news : Slot × Wire.Announcement) : Emits Found (g.follow news) := by
  dsimp only [Gallery.follow]
  repeat' split
  · exact .pure _
  · exact h.found_addTrack _ _ _
  · exact .pure _
  · exact .bind (h.found_removeTrack _) ((h.removeTrack _).found_addTrack _ _ _)

theorem found_announce (sender : UserId) (batch : List Wire.Announcement) :
    Emits Found (g.announce sender batch) := by
  have hwithdraw (g : Gallery) (hg : g.InOrder) (id : TrackId) : Emits Found (g.withdraw id) :=
    .bind (hg.found_removeTrack id) (.bind (.emit (by rintro m ⟨⟩)) (.pure _))
  have hleft (ids : List TrackId) : (forEach withdraw ids g).value.InOrder :=
    forEach_induction h fun _ hg id _ => hg.removeTrack id
  refine .bind (.forEach_of_keeps h fun g hg id _ => ⟨hg.removeTrack id, hwithdraw g hg id⟩) ?_
  exact .forEach_of_keeps ((hleft _).withAnnounced _)
    fun g hg news _ => ⟨hg.follow news, hg.found_follow news⟩

/-! ### Departures -/

/-- A slot that is cleared is gone when its track is looked up, and the track is in its stream. -/
theorem found_dropSlot (slot : Slot) : Emits Found (g.dropSlot slot) := by
  unfold Gallery.dropSlot
  split
  · exact .pure _
  · rename_i x hx
    refine .bind ?_ (.pure _)
    unfold detachHeld
    split
    · rename_i a ha
      refine (found_detach_iff _ a x.track.id).2 ?_
      exact h.grouped.finds ⟨slot, by rw [hx, ← ha]⟩
    · exact .pure _

theorem found_removePeer (peer : UserId) : Emits Found (g.removePeer peer) :=
  .bind (.forEach_of_keeps h fun _ hg slot _ => ⟨hg.dropSlot slot, hg.found_dropSlot slot⟩)
    (.bind (found_showCount _) (.pure _))

end InOrder

theorem found_unassociate (g : Gallery) (user : UserId) : Emits Found (g.unassociate user) := by
  have hdrop (g : Gallery) (r : RemoteStream) : Emits Found (g.dropStream r) :=
    .bind (found_revoke r.url) (.pure _)
  unfold unassociate
  split
  · exact .pure _
  · exact .bind (.forEach (fun g r _ => hdrop g r) _) (.bind (found_showCount _) (.pure _))

theorem found_reset (g : Gallery) : Emits Found g.reset := by
  have hstops {α : Type} (f : α → Track) (l : List α) :
      Emits Found (emitAll (l.map fun a => .stopped (f a))) := .emitAll fun e he => by
    obtain ⟨a, -, rfl⟩ := List.mem_map.1 he
    rintro m ⟨⟩
  have hrelease (m : Stream) (url : Option Url) :
      Emits Found (stopAll m >>= fun _ => revoke url) :=
    .bind (hstops id m.tracks) (found_revoke url)
  exact .bind (.forEach (fun _ m _ => hrelease m.stream m.url) _)
    (.bind (.forEach (fun _ r _ => hrelease r.stream r.url) _)
      (.bind (hstops Holding.track _) (.bind (found_showCount _) (.pure _))))

/-! ### Histories -/

/-- No change misses anything in a gallery that is in order. -/
theorem InOrder.found_apply {g : Gallery} (h : g.InOrder) (change : Change) :
    Emits Found (g.apply change) := by
  cases change with
  | addTrack slot t raw => exact h.found_addTrack slot t raw
  | removeTrack id => exact h.found_removeTrack id
  | unassociate user => exact g.found_unassociate user
  | removePeer peer => exact h.found_removePeer peer
  | announce sender batch => exact h.found_announce sender batch
  | reset => exact g.found_reset
  | addLocal recording type stream =>
    exact ((g.ofCaptures_addLocal recording type stream).map _).mono fun _ => OfCaptures.found
  | removeLocal recording type =>
    exact ((g.ofCaptures_removeLocal recording type).map _).mono fun _ => OfCaptures.found
  | setMirror type t => exact .pure _

/-- Whatever happens to a gallery, and whatever the renderer mints or refuses, every look-up finds
what it is for: the slot in which a track is indexed, the participant and the stream that the slot
is attributed to, and the track in the stream. -/
theorem misses_nothing_run (urls : UrlSource) (changes : List Change) (m : Missing) :
    .missed m ∉ ((empty urls).run changes).effects := by
  have hfound : Emits Found ((empty urls).run changes) :=
    .forEach_of_keeps (inOrder_empty urls) fun _ hg change _ =>
      ⟨hg.apply change, hg.found_apply change⟩
  exact fun hm => hfound _ hm m rfl

end Gallery

end VideoCall

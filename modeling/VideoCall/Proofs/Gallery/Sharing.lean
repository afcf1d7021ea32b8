import VideoCall.Proofs.Gallery.Connections

/-!
# Streams that connections share

Senders may attribute tracks of several connections to one stream, so what happens on a connection
reaches into streams with tracks of others. A stream goes, and its URL with it, only when its last
track goes. So as long as a track that is left alone is in a stream, the stream stays on show under
its id and from its URL, whatever comes and goes beside that track, and even while a track moves.

## Main definitions

* `Gallery.Keeps` : streams with tracks of a kind stay on show with these tracks.
* `Gallery.Free` : a connection holds no track of a kind.
* `Gallery.Spares` : the slots of a connection, and all streams with tracks from them, stay.

## Main results

* `Gallery.keeps_deed` : what happens on a connection keeps the streams with tracks of others.
* `Gallery.InOrder.spares_deed`, `Gallery.InOrder.spares_removeTrack` : it spares other connections.
-/

namespace VideoCall.Gallery

open Media Wire Outcome

/-! ### Streams that stay on show -/

/-- Every stream in which there is a track of a kind is still there, under its id, with its URL, and
with all of its tracks of that kind. -/
def Keeps (T : TrackId → Prop) (users users' : Table UserId Shown) : Prop :=
  ∀ u, ∀ r ∈ streamsOf users u, (∃ t ∈ r.stream.tracks, T t.id) →
    ∃ r' ∈ streamsOf users' u, r'.id = r.id ∧ r'.url = r.url ∧
      ∀ t ∈ r.stream.tracks, T t.id → t ∈ r'.stream.tracks

namespace Keeps

variable {T : TrackId → Prop} {users users' users'' : Table UserId Shown}

theorem refl (users : Table UserId Shown) : Keeps T users users :=
  fun _ r hr _ => ⟨r, hr, rfl, rfl, fun _ ht _ => ht⟩

theorem trans (h : Keeps T users users') (h' : Keeps T users' users'') : Keeps T users users'' := by
  rintro u r hr ⟨t, ht, hT⟩
  obtain ⟨r', hr', hid, hurl, hkeep⟩ := h u r hr ⟨t, ht, hT⟩
  obtain ⟨r'', hr'', hid', hurl', hkeep'⟩ := h' u r' hr' ⟨t, hkeep t ht hT, hT⟩
  exact ⟨r'', hr'', hid'.trans hid, hurl'.trans hurl,
    fun t ht hT => hkeep' t (hkeep t ht hT) hT⟩

/-- The streams of one participant change so that those with a track of the kind stay. -/
theorem of_streams {u : UserId} (hother : ∀ u', u' ≠ u → streamsOf users' u' = streamsOf users u')
    (hown : ∀ r ∈ streamsOf users u, ∀ t ∈ r.stream.tracks, T t.id →
      ∃ r' ∈ streamsOf users' u, r'.id = r.id ∧ r'.url = r.url ∧
        ∀ t ∈ r.stream.tracks, T t.id → t ∈ r'.stream.tracks) : Keeps T users users' := by
  rintro u' r hr ⟨t, ht, hT⟩
  by_cases hu : u' = u
  · subst hu
    exact hown r hr t ht hT
  · exact ⟨r, hother u' hu ▸ hr, rfl, rfl, fun _ ht _ => ht⟩

end Keeps

section Steps

variable {T : TrackId → Prop} (g : Gallery) {id : TrackId}

/-- A track that comes to a stream leaves all others where they are. -/
theorem keeps_attach (a : Attribution) (t : Track) :
    Keeps T g.users (g.attach a t).value.users := by
  have hstreams := streams_getD g.users a.user
  dsimp only [attach]
  split
  · refine .of_streams (u := a.user) (fun u' hu => ?_) fun r hr t' ht' hT => ?_
    · rw [value_pure, streamsOf_insert, if_neg hu]
    · rw [value_pure, streamsOf_insert, if_pos rfl, hstreams]
      refine ⟨_, List.mem_map_of_mem hr, ?_⟩
      split
      · exact ⟨rfl, rfl, fun t' ht' _ => Stream.mem_tracks_add_of_mem ht' t⟩
      · exact ⟨rfl, rfl, fun _ ht' _ => ht'⟩
  · refine .of_streams (u := a.user) (fun u' hu => ?_) fun r hr t' ht' hT => ?_
    · rw [value_bind, value_pure, streamsOf_insert, if_neg hu]
    · rw [value_bind, value_pure, streamsOf_insert, if_pos rfl, hstreams]
      exact ⟨r, List.mem_append_left _ hr, rfl, rfl, fun _ ht' _ => ht'⟩

/-- A track that leaves a stream leaves all others where they are, and a stream with another track
stays. -/
theorem keeps_detach (a : Attribution) (hid : ¬ T id) :
    Keeps T g.users (g.detach a id).value.users := by
  unfold detach
  split
  · exact .refl _
  · rename_i x hx
    split
    · exact .refl _
    · refine .of_streams (u := a.user) (fun u' hu => ?_) fun r hr t ht hT => ?_
      · simp only [value_bind, value_pure, streamsOf_setShown, if_neg hu]
      · simp only [value_bind, value_pure, streamsOf_setShown, if_true]
        have hstay : ∀ t ∈ r.stream.tracks, T t.id → t ∈ (if r.id = a.stream then
            { r with stream := r.stream.remove id } else r).stream.tracks := by
          intro t ht hT
          split
          · exact Stream.mem_tracks_remove.2 ⟨ht, fun he => hid (he ▸ hT)⟩
          · exact ht
        rw [streamsOf_of_get? hx] at hr
        refine ⟨_, Groups.mem_removeFrom.2 ⟨r, hr, rfl, List.ne_nil_of_mem (hstay t ht hT)⟩, ?_, ?_,
          hstay⟩ <;> split <;> rfl

theorem keeps_removeTrack (hid : ¬ T id) : Keeps T g.users (g.removeTrack id).value.users := by
  unfold removeTrack
  repeat' split
  · exact .refl _
  · exact .refl _
  · exact .refl _
  · rename_i slot _ _ x _ _ a _
    exact keeps_detach { g with slots := g.slots.insert slot { x with attribution := none } } a hid

theorem keeps_place (slot : Slot) (t : Track) (a : Attribution) (ht : ¬ T t.id) :
    Keeps T g.users (g.place slot t a).value.users := by
  have hleave : Keeps T g.users (g.leaveOther slot t.id).value.users := by
    unfold leaveOther
    repeat' split
    · exact .refl _
    · exact .refl _
    · exact g.keeps_removeTrack ht
  rw [value_place]
  exact hleave.trans (keeps_attach _ a t)

theorem keeps_addTrack {slot : Slot} {t : Track} (raw : StreamId) (ht : ¬ T t.id)
    (hs : ∀ x, g.slots.get? slot = some x → ¬ T x.track.id) :
    Keeps T g.users (g.addTrack slot t raw).value.users := by
  dsimp only [addTrack]
  split
  · exact g.keeps_place slot t _ ht
  · rename_i x hx
    split
    · exact .refl _
    · refine Keeps.trans ?_ (keeps_place _ slot t _ ht)
      rw [users_yieldSlot]
      exact g.keeps_removeTrack (hs x hx)

end Steps

/-! ### Connections without a track of a kind -/

/-- No slot of a connection holds a track of a kind. -/
def Free (T : TrackId → Prop) (p : UserId) (g : Gallery) : Prop :=
  ∀ k x, k.peer = p → g.slots.get? k = some x → ¬ T x.track.id

namespace Free

variable {T : TrackId → Prop} {p : UserId} {g : Gallery} (h : Free T p g)
include h

theorem removeTrack (id : TrackId) : Free T p (g.removeTrack id).value := by
  intro k x hk hx
  rw [get?_slots_removeTrack] at hx
  split at hx
  · obtain ⟨y, hy, rfl⟩ := Option.map_eq_some_iff.1 hx
    exact h k y hk hy
  · exact h k x hk hx

theorem addTrack (hg : g.InOrder) (slot : Slot) {t : Track} (raw : StreamId) (ht : ¬ T t.id) :
    Free T p (g.addTrack slot t raw).value := by
  intro k x hk hx
  rw [hg.get?_slots_addTrack] at hx
  split at hx
  · obtain rfl := Option.some.inj hx
    rwa [InOrder.id_handle_addTrack]
  · split at hx
    · cases hx
    · exact h k x hk hx

theorem dropSlot (slot : Slot) : Free T p (g.dropSlot slot).value := by
  intro k x hk hx
  obtain ⟨users, index, hv⟩ := g.value_dropSlot slot
  rw [hv] at hx
  dsimp only at hx
  rw [Table.get?_erase] at hx
  split at hx
  · cases hx
  · exact h k x hk hx

end Free

section Deeds

variable {T : TrackId → Prop} {p : UserId} {g : Gallery}

/-- A track that moves to where it is announced leaves all others where they are. -/
theorem keeps_follow (h : g.InOrder) (hfree : Free T p g) {slot : Slot} (hs : slot.peer = p)
    (m : Announcement) :
    Free T p (g.follow (slot, m)).value ∧ Keeps T g.users (g.follow (slot, m)).value.users := by
  dsimp only [follow]
  split
  · exact ⟨hfree, .refl _⟩
  · rename_i x hx
    have ht : ¬ T x.track.id := hfree slot x hs hx
    split
    · exact ⟨hfree.addTrack h slot m.stream ht,
        g.keeps_addTrack m.stream ht fun y hy => hfree slot y hs hy⟩
    · split
      · exact ⟨hfree, .refl _⟩
      · have hout := hfree.removeTrack x.track.id
        exact ⟨hout.addTrack (h.removeTrack _) slot m.stream ht,
          (g.keeps_removeTrack ht).trans
            (keeps_addTrack _ m.stream ht fun y hy => hout slot y hs hy)⟩

theorem keeps_announce (h : g.InOrder) (hfree : Free T p g) (batch : List Announcement) :
    Keeps T g.users (g.announce p batch).value.users := by
  suffices hkept : (g.announce p batch).value.InOrder ∧ Free T p (g.announce p batch).value ∧
      Keeps T g.users (g.announce p batch).value.users from hkept.2.2
  refine announce_induction (p := fun g' => g'.InOrder ∧ Free T p g' ∧ Keeps T g.users g'.users)
    ⟨h, hfree, .refl _⟩ ?_ ?_ ?_
  · rintro g' ⟨h', hfree', hkeep⟩ id hid
    obtain ⟨k, x, hx, hk, -, -, rfl⟩ := mem_undescribed.1 hid
    exact ⟨h'.removeTrack _, hfree'.removeTrack _,
      hkeep.trans (g'.keeps_removeTrack (hfree k x hk hx))⟩
  · rintro g' a ⟨h', hfree', hkeep⟩
    exact ⟨h'.withAnnounced a, hfree', hkeep⟩
  · rintro g' ⟨h', hfree', hkeep⟩ e he
    have hp : e.1.peer = p := (Announcements.of_get?_ofBatch (Table.mem_entries_iff.1 he)).1
    obtain ⟨hfree'', hstep⟩ := keeps_follow h' hfree' hp e.2
    exact ⟨h'.follow e, hfree'', hkeep.trans hstep⟩

theorem keeps_removePeer (hfree : Free T p g) :
    Keeps T g.users (g.removePeer p).value.users := by
  have hkept : Free T p (forEach dropSlot (g.slotsOf p) g).value ∧
      Keeps T g.users (forEach dropSlot (g.slotsOf p) g).value.users := by
    refine forEach_induction (p := fun g' => Free T p g' ∧ Keeps T g.users g'.users)
      ⟨hfree, .refl _⟩ ?_
    rintro g' ⟨hfree', hkeep⟩ slot hslot
    refine ⟨hfree'.dropSlot slot, hkeep.trans ?_⟩
    have hp : slot.peer = p := (mem_slotsOf.1 hslot).1
    unfold Gallery.dropSlot
    split
    · exact .refl _
    · rename_i x hx
      dsimp only [value_bind, value_pure, detachHeld]
      split
      · rename_i a _
        exact keeps_detach { g' with slots := g'.slots.erase slot } a (hfree' slot x hp hx)
      · exact .refl _
  exact hkept.2

/-- What happens on a connection keeps the streams with tracks that have no part in it: that neither
sit in a slot of the connection nor arrive there. -/
theorem keeps_deed (h : g.InOrder) (hfree : Free T p g) (d : Deed)
    (hd : ∀ id ∈ d.track?, ¬ T id) :
    Keeps T g.users (g.apply (d.change p)).value.users := by
  cases d with
  | arrive a => exact g.keeps_addTrack a.raw (hd _ rfl) fun x hx => hfree ⟨p, a.mid⟩ x rfl hx
  | describe batch => exact keeps_announce h hfree batch
  | leave => exact keeps_removePeer hfree

end Deeds

/-! ### Connections that are spared -/

/-- A connection is spared: its slots, their places in the index, and what was announced for them
are as they were, and a stream with a track of the connection is still there, under its participant
and its id, with its URL, and with all of its tracks of the connection. -/
structure Spares (q : UserId) (g g' : Gallery) : Prop where
  slots : ∀ k, k.peer = q → g'.slots.get? k = g.slots.get? k
  announced : ∀ k, k.peer = q → g'.announced.get? k = g.announced.get? k
  index : ∀ id k, k.peer = q → (g'.index.get? id = some k ↔ g.index.get? id = some k)
  streams : ∀ u, ∀ r ∈ streamsOf g.users u,
    (∃ k x, k.peer = q ∧ g.slots.get? k = some x ∧ x.track ∈ r.stream.tracks) →
      ∃ r' ∈ streamsOf g'.users u, r'.id = r.id ∧ r'.url = r.url ∧
        ∀ k x, k.peer = q → g.slots.get? k = some x → x.track ∈ r.stream.tracks →
          x.track ∈ r'.stream.tracks

theorem Spares.refl (q : UserId) (g : Gallery) : Spares q g g :=
  ⟨fun _ _ => rfl, fun _ _ => rfl, fun _ _ _ => Iff.rfl,
    fun _ r hr _ => ⟨r, hr, rfl, rfl, fun _ _ _ _ ht => ht⟩⟩

/-- The tracks that sit in the slots of a connection, by the index. -/
def SitsWith (g : Gallery) (q : UserId) (id : TrackId) : Prop :=
  ∃ k, k.peer = q ∧ g.index.get? id = some k

namespace InOrder

variable {g g' : Gallery} {p q : UserId} (h : g.InOrder)
include h

/-- A connection is spared if its slots are as they were, and the streams with its tracks stay. -/
theorem spares (h' : g'.InOrder) (ha : AgreeOn q g g')
    (hk : Keeps (g.SitsWith q) g.users g'.users) : Spares q g g' where
  slots := ha.slots
  announced := ha.announced
  index id k hq := by rw [h'.index_iff, h.index_iff, ha.slots k hq]
  streams := by
    rintro u r hr ⟨k, x, hq, hx, ht⟩
    obtain ⟨r', hr', hid, hurl, hkeep⟩ := hk u r hr ⟨x.track, ht, k, hq, h.index_of_slot hx⟩
    exact ⟨r', hr', hid, hurl, fun k x hq hx ht => hkeep x.track ht ⟨k, hq, h.index_of_slot hx⟩⟩

/-- What happens on a connection spares another one, if no track comes from there. -/
theorem spares_deed (hpq : p ≠ q) (d : Deed) (hd : d.AwayFrom q g) :
    Spares q g (g.apply (d.change p)).value := by
  have hfree : Free (g.SitsWith q) p g := by
    rintro k x hk hx ⟨k', hk', hi⟩
    obtain rfl := Option.some.inj ((h.index_of_slot hx).symm.trans hi)
    exact hpq (hk.symm.trans hk')
  refine h.spares (h.apply _) (h.agreeOn_of_ne hpq hd) (keeps_deed h hfree d ?_)
  rintro id hid ⟨k, hk, hi⟩
  obtain ⟨x, hx, rfl⟩ := (h.index_iff id k).1 hi
  exact hd k x hk hx hid

/-- A track that is taken out of its stream is nothing to a connection in whose slots it does not
sit. -/
theorem spares_removeTrack {id : TrackId} (hid : ∀ k ∈ g.index.get? id, k.peer ≠ q) :
    Spares q g (g.removeTrack id).value := by
  refine h.spares (h.removeTrack id) ⟨fun k hk => ?_, fun k _ => ?_⟩ (g.keeps_removeTrack ?_)
  · rw [get?_slots_removeTrack, if_neg fun hi : g.index.get? id = some k => hid k hi hk]
  · rw [announced_removeTrack]
  · rintro ⟨k, hk, hi⟩
    exact hid k hi hk

end InOrder

end VideoCall.Gallery

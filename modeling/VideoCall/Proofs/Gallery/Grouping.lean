import Mathlib.Data.List.Nodup
import VideoCall.Gallery.Tracks

/-!
# Streams as groups of tracks

The streams of the participants group tracks by participant and stream id. What they group is a
relation between participants, stream ids and tracks: a track that is attached is added to the
relation, and a track that is detached is taken out of it. The streams hold the relation and nothing
more, which is what makes them a view of the slots: no stream is without a track, and no id stands
for two streams of one participant.

## Main definitions

* `Gallery.Groups` : the streams of one participant hold exactly the tracks of a relation.
* `Gallery.Grouped` : the same for the streams of all participants.

## Main results

* `Gallery.Groups.addTo`, `Gallery.Groups.append`, `Gallery.Groups.removeFrom` : what happens to the
  relation when a track comes to a stream or leaves it.
* `Gallery.Grouped.setShown` : the entry of a participant is replaced.
-/

namespace VideoCall.Gallery

open Media

/-! ### The streams of one participant -/

/-- The streams hold exactly the tracks that the relation puts under their ids, each id names one
stream, every stream holds a track, and no stream holds two tracks with one id. -/
structure Groups (l : List RemoteStream) (P : StreamId → Track → Prop) : Prop where
  mem_iff : ∀ s t, (∃ r ∈ l, r.id = s ∧ t ∈ r.stream.tracks) ↔ P s t
  nodup_ids : (l.map (·.id)).Nodup
  named : ∀ r ∈ l, r.stream.id = r.id
  nonempty : ∀ r ∈ l, r.stream.tracks ≠ []
  nodup_tracks : ∀ r ∈ l, r.stream.trackIds.Nodup

namespace Groups

variable {l : List RemoteStream} {P Q : StreamId → Track → Prop} {s : StreamId} {t : Track}
  {id : TrackId}

theorem congr (h : Groups l P) (hpq : ∀ s t, P s t ↔ Q s t) : Groups l Q :=
  ⟨fun s t => (h.mem_iff s t).trans (hpq s t), h.nodup_ids, h.named, h.nonempty, h.nodup_tracks⟩

theorem nil (h : ∀ s t, ¬ P s t) : Groups [] P :=
  ⟨fun s t => ⟨fun ⟨_, hr, _⟩ => absurd hr List.not_mem_nil, fun hp => absurd hp (h s t)⟩, by simp,
    by simp, by simp, by simp⟩

theorem not_of_eq_nil (h : Groups [] P) (s : StreamId) (t : Track) : ¬ P s t := fun hp => by
  obtain ⟨r, hr, -⟩ := (h.mem_iff s t).2 hp
  exact List.not_mem_nil hr

/-- A track comes to a stream that is there. -/
theorem addTo (h : Groups l P) (hs : ∃ r ∈ l, r.id = s) (hnew : ∀ t', P s t' → t'.id ≠ t.id) :
    Groups (addTo s t l) fun s' t' => P s' t' ∨ s' = s ∧ t' = t := by
  have hids : ((Gallery.addTo s t l).map (·.id)) = l.map (·.id) := by
    rw [Gallery.addTo, List.map_map]
    refine List.map_congr_left fun r _ => ?_
    dsimp only [Function.comp_apply]
    split <;> rfl
  have htracks :
      ∀ r ∈ l, r.id = s → (r.stream.add t).tracks = r.stream.tracks ++ [t] := fun r hr he =>
    Stream.tracks_add fun t' ht' => hnew t' ((h.mem_iff s t').1 ⟨r, hr, he, ht'⟩)
  refine ⟨fun s' t' => ⟨?_, ?_⟩, hids ▸ h.nodup_ids, ?_, ?_, ?_⟩
  · rintro ⟨r', hr', rfl, ht'⟩
    obtain ⟨r, hr, rfl⟩ := List.mem_map.1 hr'
    split at ht'
    · rename_i he
      rw [htracks r hr he, List.mem_append, List.mem_singleton] at ht'
      rw [if_pos he]
      exact ht'.imp (fun hm => (h.mem_iff _ _).1 ⟨r, hr, rfl, hm⟩) fun e => ⟨he, e⟩
    · rename_i he
      rw [if_neg he]
      exact Or.inl ((h.mem_iff _ _).1 ⟨r, hr, rfl, ht'⟩)
  · rintro (hp | ⟨rfl, rfl⟩)
    · obtain ⟨r, hr, rfl, ht'⟩ := (h.mem_iff _ _).2 hp
      refine ⟨_, List.mem_map_of_mem hr, ?_, ?_⟩ <;> split
      · rfl
      · rfl
      · rename_i he
        exact htracks r hr he ▸ List.mem_append_left _ ht'
      · exact ht'
    · obtain ⟨r, hr, he⟩ := hs
      refine ⟨_, List.mem_map_of_mem hr, ?_, ?_⟩ <;> rw [if_pos he]
      · exact he
      · exact htracks r hr he ▸ List.mem_append_right _ List.mem_cons_self
  all_goals
    intro r' hr'
    obtain ⟨r, hr, rfl⟩ := List.mem_map.1 hr'
    split
  · exact (Stream.id_add _ _).trans (h.named r hr)
  · exact h.named r hr
  · exact Stream.tracks_add_ne_nil _ _
  · exact h.nonempty r hr
  · exact Stream.nodup_trackIds_add (h.nodup_tracks r hr) t
  · exact h.nodup_tracks r hr

/-- A track comes to a stream that was not there. -/
theorem append (h : Groups l P) (hs : ∀ r ∈ l, r.id ≠ s) (url : Option Url) :
    Groups (l ++ [⟨.ofTracks s [t], s, url⟩]) fun s' t' => P s' t' ∨ s' = s ∧ t' = t := by
  refine ⟨fun s' t' => ?_, ?_, ?_, ?_, ?_⟩
  · constructor
    · rintro ⟨r, hr, rfl, ht'⟩
      rcases List.mem_append.1 hr with hr | hr
      · exact Or.inl ((h.mem_iff _ _).1 ⟨r, hr, rfl, ht'⟩)
      · obtain rfl := List.mem_singleton.1 hr
        exact Or.inr ⟨rfl, List.mem_singleton.1 ht'⟩
    · rintro (hp | ⟨rfl, rfl⟩)
      · obtain ⟨r, hr, rfl, ht'⟩ := (h.mem_iff _ _).2 hp
        exact ⟨r, List.mem_append_left _ hr, rfl, ht'⟩
      · exact ⟨_, List.mem_append_right _ List.mem_cons_self, rfl, List.mem_cons_self⟩
  · rw [List.map_append]
    refine List.nodup_append.2 ⟨h.nodup_ids, by simp, ?_⟩
    rintro a ha b hb rfl
    obtain ⟨r, hr, rfl⟩ := List.mem_map.1 ha
    exact hs r hr (List.mem_singleton.1 hb)
  all_goals
    intro r hr
    rcases List.mem_append.1 hr with hr | hr
  · exact h.named r hr
  · rw [List.mem_singleton.1 hr]
    rfl
  · exact h.nonempty r hr
  · rw [List.mem_singleton.1 hr, Stream.ofTracks_singleton]
    exact List.cons_ne_nil _ _
  · exact h.nodup_tracks r hr
  · rw [List.mem_singleton.1 hr, Stream.ofTracks_singleton]
    exact List.nodup_singleton _

/-- A stream of `removeFrom` comes from a stream with its id and the same tracks but the one. -/
theorem mem_removeFrom {r' : RemoteStream} :
    r' ∈ Gallery.removeFrom s id l ↔ ∃ r ∈ l,
      (if r.id = s then { r with stream := r.stream.remove id } else r) = r' ∧
        r'.stream.tracks ≠ [] := by
  rw [Gallery.removeFrom, List.mem_filter, List.mem_map, Stream.not_isEmpty_iff]
  exact ⟨fun ⟨⟨r, hr, he⟩, hn⟩ => ⟨r, hr, he, hn⟩, fun ⟨r, hr, he, hn⟩ => ⟨⟨r, hr, he⟩, hn⟩⟩

/-- A track leaves a stream, which goes if it held no other. -/
theorem removeFrom (h : Groups l P) (s : StreamId) (id : TrackId) :
    Groups (removeFrom s id l) fun s' t' => P s' t' ∧ ¬ (s' = s ∧ t'.id = id) := by
  refine ⟨fun s' t' => ⟨?_, ?_⟩, ?_, ?_, ?_, ?_⟩
  · rintro ⟨r', hr', rfl, ht'⟩
    obtain ⟨r, hr, rfl, -⟩ := mem_removeFrom.1 hr'
    split at ht'
    · rename_i he
      obtain ⟨ht, hid⟩ := Stream.mem_tracks_remove.1 ht'
      rw [if_pos he]
      exact ⟨(h.mem_iff _ _).1 ⟨r, hr, rfl, ht⟩, fun hc => hid hc.2⟩
    · rename_i he
      rw [if_neg he]
      exact ⟨(h.mem_iff _ _).1 ⟨r, hr, rfl, ht'⟩, fun hc => he hc.1⟩
  · rintro ⟨hp, hne⟩
    obtain ⟨r, hr, rfl, ht⟩ := (h.mem_iff _ _).2 hp
    have hmem :
        t' ∈ (if r.id = s then { r with stream := r.stream.remove id } else r).stream.tracks := by
      split
      · rename_i he
        exact Stream.mem_tracks_remove.2 ⟨ht, fun e => hne ⟨he, e⟩⟩
      · exact ht
    refine ⟨_, mem_removeFrom.2 ⟨r, hr, rfl, List.ne_nil_of_mem hmem⟩, ?_, hmem⟩
    split <;> rfl
  · rw [Gallery.removeFrom]
    refine List.Nodup.sublist (List.Sublist.map _ List.filter_sublist) ?_
    rw [List.map_map]
    refine (List.map_congr_left fun r _ => ?_) ▸ h.nodup_ids
    dsimp only [Function.comp_apply]
    split <;> rfl
  all_goals
    intro r' hr'
    obtain ⟨r, hr, rfl, hn⟩ := mem_removeFrom.1 hr'
  · split <;> exact h.named r hr
  · exact hn
  · split
    · exact Stream.nodup_trackIds_remove (h.nodup_tracks r hr) id
    · exact h.nodup_tracks r hr

end Groups

/-! ### The streams of all participants -/

/-- The streams of a participant; none if the participant is not shown. -/
def streamsOf (users : Table UserId Shown) (u : UserId) : List RemoteStream :=
  ((users.get? u).map Shown.streams).getD []

theorem streamsOf_of_get? {users : Table UserId Shown} {u : UserId} {x : Shown}
    (h : users.get? u = some x) :
    streamsOf users u = x.streams := by
  rw [streamsOf, h]
  rfl

/-- The entry to which a track is added has the streams of the participant. -/
theorem streams_getD (users : Table UserId Shown) (u : UserId) :
    ((users.get? u).getD ⟨u, []⟩).streams = streamsOf users u := by
  unfold streamsOf
  cases users.get? u <;> rfl

theorem streamsOf_insert (users : Table UserId Shown) (u u' : UserId) (x : Shown) :
    streamsOf (users.insert u x) u' = if u' = u then x.streams else streamsOf users u' := by
  rw [streamsOf, streamsOf, Table.get?_insert]
  by_cases h : u' = u <;> simp [h]

theorem streamsOf_erase (users : Table UserId Shown) (u u' : UserId) :
    streamsOf (users.erase u) u' = if u' = u then [] else streamsOf users u' := by
  rw [streamsOf, streamsOf, Table.get?_erase]
  by_cases h : u' = u <;> simp [h]

theorem streamsOf_setShown (users : Table UserId Shown) (u u' : UserId) (x : Shown) :
    streamsOf (setShown users u x) u' = if u' = u then x.streams else streamsOf users u' := by
  unfold setShown
  split
  · rename_i h
    rw [streamsOf_erase, List.isEmpty_iff.1 h]
  · rw [streamsOf_insert]

/-- The entries of all participants hold exactly the tracks of the relation, and only participants
with a stream have an entry. -/
structure Grouped (users : Table UserId Shown) (P : UserId → StreamId → Track → Prop) : Prop where
  groups : ∀ u, Groups (streamsOf users u) (P u)
  entry : ∀ u x, users.get? u = some x → x.user = u ∧ x.streams ≠ []

namespace Grouped

variable {users : Table UserId Shown} {P Q : UserId → StreamId → Track → Prop}

theorem congr (h : Grouped users P) (hpq : ∀ u s t, P u s t ↔ Q u s t) : Grouped users Q :=
  ⟨fun u => (h.groups u).congr (hpq u), h.entry⟩

theorem empty (h : ∀ u s t, ¬ P u s t) : Grouped ∅ P :=
  ⟨fun u => .nil (h u), fun _ _ hx => by cases hx⟩

theorem groups_of_get? (h : Grouped users P) {u : UserId} {x : Shown} (hx : users.get? u = some x) :
    Groups x.streams (P u) :=
  streamsOf_of_get? hx ▸ h.groups u

theorem not_of_get?_eq_none (h : Grouped users P) {u : UserId} (hu : users.get? u = none)
    (s : StreamId) (t : Track) : ¬ P u s t := by
  have := h.groups u
  rw [streamsOf, hu] at this
  exact this.not_of_eq_nil s t

/-- The entry of a participant is replaced, or goes if it is left without a stream. -/
theorem setShown (h : Grouped users P) {u : UserId} {x : Shown} (hu : x.user = u)
    (hx : Groups x.streams (Q u)) (hpq : ∀ u' s t, u' ≠ u → (P u' s t ↔ Q u' s t)) :
    Grouped (setShown users u x) Q := by
  refine ⟨fun u' => ?_, fun u' y hy => ?_⟩
  · rw [streamsOf_setShown]
    split
    · rename_i he
      exact he ▸ hx
    · rename_i he
      exact (h.groups u').congr fun s t => hpq u' s t he
  · unfold Gallery.setShown at hy
    split at hy
    · rw [Table.get?_erase] at hy
      split at hy
      · cases hy
      · exact h.entry u' y hy
    · rename_i hne
      rw [Table.get?_insert] at hy
      split at hy
      · rename_i he
        obtain rfl : u' = u := Std.LawfulEqOrd.eq_of_compare he
        obtain rfl := Option.some.inj hy
        exact ⟨hu, fun e => hne (List.isEmpty_iff.2 e)⟩
      · exact h.entry u' y hy

/-- The entry of a participant is replaced by one with a stream. -/
theorem insert (h : Grouped users P) {u : UserId} {x : Shown} (hu : x.user = u)
    (hne : x.streams ≠ [])
    (hx : Groups x.streams (Q u)) (hpq : ∀ u' s t, u' ≠ u → (P u' s t ↔ Q u' s t)) :
    Grouped (users.insert u x) Q := by
  have := h.setShown hu hx hpq
  rwa [Gallery.setShown, if_neg (mt List.isEmpty_iff.1 hne)] at this

/-- The entry of a participant goes. -/
theorem erase (h : Grouped users P) {u : UserId} (hu : ∀ s t, ¬ Q u s t)
    (hpq : ∀ u' s t, u' ≠ u → (P u' s t ↔ Q u' s t)) : Grouped (users.erase u) Q := by
  have := h.setShown (x := ⟨u, []⟩) rfl (.nil hu) hpq
  simpa [Gallery.setShown] using this

end Grouped

end VideoCall.Gallery

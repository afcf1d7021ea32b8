import VideoCall.Media.Track

/-!
# Media streams

A stream is a list of tracks with distinct ids, in the order in which they came in. Of several
handles with one id the first one stays.

## Main definitions

* `Media.Stream` : a stream.
* `Media.Stream.add`, `Media.Stream.remove` : a stream with one more or one less track.
* `Media.Stream.adds`, `Media.Stream.removes` : what such a call answers.
-/

namespace VideoCall.Media

/-- The tracks that are rendered together. -/
structure Stream where
  id : StreamId
  tracks : List Track
  deriving DecidableEq

namespace Stream

/-- The stream without a track. -/
def empty (id : StreamId) : Stream := ⟨id, []⟩

/-- Whether there is a track with the given id. -/
def contains (s : Stream) (id : TrackId) : Bool := s.tracks.any fun t => t.id = id

/-- The stream with the track behind the others, unless a track with its id is there already. -/
def add (s : Stream) (t : Track) : Stream :=
  if s.contains t.id then s else { s with tracks := s.tracks ++ [t] }

/-- The stream without the track of the given id. -/
def remove (s : Stream) (id : TrackId) : Stream :=
  { s with tracks := s.tracks.filter fun t => t.id ≠ id }

/-- Whether a call to add takes the track in. -/
def adds (s : Stream) (t : Track) : Bool := !s.contains t.id

/-- Whether a call to remove takes a track out: there are fewer tracks then. -/
def removes (s : Stream) (id : TrackId) : Bool := (s.remove id).tracks.length ≠ s.tracks.length

/-- The stream of a list of tracks. -/
def ofTracks (id : StreamId) (tracks : List Track) : Stream := tracks.foldl add (empty id)

/-- Whether there is no track. -/
def isEmpty (s : Stream) : Bool := s.tracks.isEmpty

/-- The ids of the tracks, in order. -/
def trackIds (s : Stream) : List TrackId := s.tracks.map (·.id)

/-- The video tracks, in order. -/
def videoTracks (s : Stream) : List Track := s.tracks.filter fun t => t.kind = .video

/-- Whether two streams have one id and tracks with the same ids in the same order. -/
def same (s t : Stream) : Bool := s.id = t.id && s.trackIds = t.trackIds

/-! ### Membership -/

theorem contains_iff {s : Stream} {id : TrackId} : s.contains id ↔ ∃ t ∈ s.tracks, t.id = id := by
  simp [contains]

theorem contains_iff_mem_trackIds {s : Stream} {id : TrackId} :
    s.contains id ↔ id ∈ s.trackIds := by
  rw [contains_iff, trackIds, List.mem_map]

@[simp]
theorem id_add (s : Stream) (t : Track) : (s.add t).id = s.id := by
  unfold add
  split <;> rfl

@[simp]
theorem id_remove (s : Stream) (id : TrackId) : (s.remove id).id = s.id := rfl

theorem tracks_add {s : Stream} {t : Track} (h : ∀ t' ∈ s.tracks, t'.id ≠ t.id) :
    (s.add t).tracks = s.tracks ++ [t] := by
  have hnot : ¬ s.contains t.id := fun hc => by
    obtain ⟨t', ht', he⟩ := contains_iff.1 hc
    exact h t' ht' he
  rw [add, if_neg hnot]

theorem tracks_add_ne_nil (s : Stream) (t : Track) : (s.add t).tracks ≠ [] := by
  unfold add
  split
  · rename_i hc
    obtain ⟨t', ht', -⟩ := contains_iff.1 hc
    exact List.ne_nil_of_mem ht'
  · simp

theorem mem_tracks_add_of_mem {s : Stream} {t : Track} (h : t ∈ s.tracks) (t' : Track) :
    t ∈ (s.add t').tracks := by
  unfold add
  split
  · exact h
  · exact List.mem_append_left _ h

theorem mem_tracks_remove {s : Stream} {id : TrackId} {t : Track} :
    t ∈ (s.remove id).tracks ↔ t ∈ s.tracks ∧ t.id ≠ id := by
  simp [remove]

/-- No track comes twice into a stream. -/
theorem nodup_trackIds_add {s : Stream} (h : s.trackIds.Nodup) (t : Track) :
    (s.add t).trackIds.Nodup := by
  unfold add
  split
  · exact h
  · rename_i hc
    have hnew : t.id ∉ s.trackIds := fun hm => hc (contains_iff_mem_trackIds.2 hm)
    simp only [trackIds, List.map_append, List.map_cons, List.map_nil]
    refine List.nodup_append.2 ⟨h, by simp, ?_⟩
    rintro a ha b hb rfl
    exact hnew (List.mem_singleton.1 hb ▸ ha)

theorem nodup_trackIds_remove {s : Stream} (h : s.trackIds.Nodup) (id : TrackId) :
    (s.remove id).trackIds.Nodup :=
  h.sublist (List.Sublist.map _ List.filter_sublist)

/-- A track is taken in if, and only if, its id is new. -/
theorem adds_iff {s : Stream} {t : Track} : s.adds t ↔ t.id ∉ s.trackIds := by
  rw [adds, Bool.not_eq_true', ← Bool.not_eq_true, contains_iff_mem_trackIds]

/-- A track is taken out if, and only if, one has the id. -/
theorem removes_iff {s : Stream} {id : TrackId} : s.removes id ↔ id ∈ s.trackIds := by
  rw [removes, decide_eq_true_iff, Ne, remove, List.length_filter_eq_length_iff, trackIds,
    List.mem_map]
  simp

theorem isEmpty_iff {s : Stream} : s.isEmpty ↔ s.tracks = [] := by
  simp [isEmpty]

theorem not_isEmpty_iff {s : Stream} : !s.isEmpty ↔ s.tracks ≠ [] := by
  simp [isEmpty]

theorem ofTracks_singleton (id : StreamId) (t : Track) : ofTracks id [t] = ⟨id, [t]⟩ := rfl

end Stream

namespace Stopped

/-- The handles stopped after all tracks of a stream were. -/
def stopAll (s : Stopped) (m : Stream) : Stopped := m.tracks.foldl stop s

end Stopped

end VideoCall.Media

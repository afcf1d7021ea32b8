import Mathlib.Data.List.DropRight
import Mathlib.Data.List.Pairwise
import VideoCall.Media.History

/-!
# A stream follows what happened to it

A track that is offered is taken in if none with its id is there. It stays until its id is dropped,
and no track that is offered meanwhile takes its place. So for each id in a stream the last time
that a track was taken in says which handle is there, and before which others.

## Main definitions

* `Stream.Event.Holds` : a track with the id was offered since the id was last dropped.
* `Stream.Event.TakesIn`, `Stream.Event.LastTakesIn` : a track is taken in at some place, and none
  with its id at a later one.
* `Stream.Follows` : a stream has the tracks that were taken in and not dropped, in that order.

## Main results

* `Stream.Follows.add`, `Stream.Follows.remove` : a stream that follows goes on to do so.
* `Stream.Follows.ofTracks` : a stream of a list of tracks follows the list.
-/

namespace VideoCall.Media.Stream

namespace Event

/-! ### What is held -/

/-- What happened since the id was last dropped; all of it, if it never was. -/
def since (l : List Event) (id : TrackId) : List Event := l.rtakeWhile (· ≠ dropped id)

/-- A track with the id was offered since the id was last dropped. -/
def Holds (l : List Event) (id : TrackId) : Prop := ∃ t, offered t ∈ since l id ∧ t.id = id

variable {l : List Event} {e : Event} {id id' : TrackId} {t t' : Track} {i j : Nat}

theorem since_concat_dropped : since (l ++ [dropped id]) id = [] :=
  List.rtakeWhile_concat_neg _ _ _ (by simp)

theorem since_concat (h : e ≠ dropped id) : since (l ++ [e]) id = since l id ++ [e] :=
  List.rtakeWhile_concat_pos _ _ _ (by simp [h])

theorem not_holds_nil : ¬ Holds [] id := by
  rintro ⟨t, ht, -⟩
  cases ht

theorem holds_concat_offered : Holds (l ++ [offered t]) id ↔ Holds l id ∨ t.id = id := by
  simp only [Holds, since_concat (nofun : offered t ≠ dropped id), List.mem_append,
    List.mem_singleton, offered.injEq, or_and_right, exists_or, exists_eq_left]

theorem holds_concat_dropped : Holds (l ++ [dropped id']) id ↔ Holds l id ∧ id ≠ id' := by
  by_cases h : id = id'
  · subst h
    refine iff_of_false ?_ fun hboth => hboth.2 rfl
    rintro ⟨t, ht, -⟩
    rw [since_concat_dropped] at ht
    cases ht
  · have hkeep : dropped id' ≠ dropped id := fun he => h (dropped.inj he).symm
    simp [Holds, since_concat hkeep, h]

/-! ### What is taken in -/

/-- The track is offered at the place, and none with its id is held there. -/
def TakesIn (l : List Event) (i : Nat) (t : Track) : Prop :=
  l[i]? = some (offered t) ∧ ¬ Holds (l.take i) t.id

/-- The track is taken in at the place, and none with its id is taken in later. -/
def LastTakesIn (l : List Event) (i : Nat) (t : Track) : Prop :=
  TakesIn l i t ∧ ∀ j t', TakesIn l j t' → t'.id = t.id → j ≤ i

theorem TakesIn.lt_length (h : TakesIn l i t) : i < l.length :=
  (List.getElem?_eq_some_iff.1 h.1).1

theorem TakesIn.le_length (h : TakesIn (l ++ [e]) i t) : i ≤ l.length := by
  simpa [Nat.lt_succ_iff] using h.lt_length

/-- One more event is the only one at which more may be taken in. -/
theorem takesIn_concat_iff :
    TakesIn (l ++ [e]) i t ↔ TakesIn l i t ∨ i = l.length ∧ e = offered t ∧ ¬ Holds l t.id := by
  rcases lt_trichotomy i l.length with h | rfl | h
  · simp only [TakesIn, List.getElem?_append_left h, List.take_append_of_le_length h.le, h.ne,
      false_and, or_false]
  · simp [TakesIn]
  · refine iff_of_false (fun hin => absurd hin.le_length h.not_ge) ?_
    rintro (hin | ⟨he, -⟩)
    · exact absurd hin.lt_length h.not_gt
    · exact h.ne' he

/-- Nothing is taken in by an event that drops an id, or offers a track whose id is held. -/
theorem lastTakesIn_concat_iff_of_not_taken (h : ∀ t', e = offered t' → Holds l t'.id) :
    LastTakesIn (l ++ [e]) i t ↔ LastTakesIn l i t := by
  have hsame (j : Nat) (t' : Track) : TakesIn (l ++ [e]) j t' ↔ TakesIn l j t' := by
    rw [takesIn_concat_iff]
    exact or_iff_left fun hnew => hnew.2.2 (h t' hnew.2.1)
  simp only [LastTakesIn, hsame]

/-- A track that is taken in is the last one with its id. -/
theorem lastTakesIn_concat_self (h : ¬ Holds l t.id) :
    LastTakesIn (l ++ [offered t]) i t ↔ i = l.length := by
  have hself : TakesIn (l ++ [offered t]) l.length t :=
    takesIn_concat_iff.2 (Or.inr ⟨rfl, rfl, h⟩)
  constructor
  · rintro ⟨hin, hlast⟩
    exact hin.le_length.antisymm (hlast l.length t hself rfl)
  · rintro rfl
    exact ⟨hself, fun j t' hin _ => hin.le_length⟩

/-- A track that is taken in makes no difference to the last one with another id. -/
theorem lastTakesIn_concat_of_ne (h : t'.id ≠ t.id) :
    LastTakesIn (l ++ [offered t]) i t' ↔ LastTakesIn l i t' := by
  have hsame (j : Nat) {s : Track} (hs : s.id = t'.id) :
      TakesIn (l ++ [offered t]) j s ↔ TakesIn l j s := by
    rw [takesIn_concat_iff]
    refine or_iff_left ?_
    rintro ⟨-, he, -⟩
    cases he
    exact h hs.symm
  unfold LastTakesIn
  refine and_congr (hsame i rfl) (forall_congr' fun j => forall_congr' fun s => ?_)
  exact ⟨fun hlast hin he => hlast ((hsame j he).2 hin) he,
    fun hlast hin he => hlast ((hsame j he).1 hin) he⟩

end Event

open Event

/-! ### What a stream shows of it -/

/-- A stream has the tracks that were taken in and not dropped, in that order. -/
structure Follows (s : Stream) (l : List Event) : Prop where
  /-- No two tracks have one id. -/
  nodup : s.trackIds.Nodup
  /-- The ids are those that are held. -/
  mem_iff : ∀ id, id ∈ s.trackIds ↔ Holds l id
  /-- Each track is the one that was taken in last of those with its id. -/
  last : ∀ t ∈ s.tracks, ∃ i, LastTakesIn l i t
  /-- The tracks are in the order in which they were taken in. -/
  ordered : s.tracks.Pairwise fun t t' =>
    ∀ i j, LastTakesIn l i t → LastTakesIn l j t' → i < j

namespace Follows

variable {s : Stream} {l : List Event}

theorem empty (id : StreamId) : Follows (.empty id) [] where
  nodup := .nil
  mem_iff _ := iff_of_false List.not_mem_nil not_holds_nil
  last _ ht := absurd ht List.not_mem_nil
  ordered := .nil

/-- An event at which nothing is taken in leaves the tracks that stay where they are. -/
theorem sublist {s' : Stream} {e : Event} (h : s.Follows l) (hs : s'.tracks.Sublist s.tracks)
    (he : ∀ t', e = offered t' → Holds l t'.id)
    (hmem : ∀ id, id ∈ s'.trackIds ↔ Holds (l ++ [e]) id) : s'.Follows (l ++ [e]) where
  nodup := h.nodup.sublist (hs.map _)
  mem_iff := hmem
  last t ht := by
    simp only [lastTakesIn_concat_iff_of_not_taken he]
    exact h.last t (hs.subset ht)
  ordered := by
    simp only [lastTakesIn_concat_iff_of_not_taken he]
    exact h.ordered.sublist hs

theorem remove (h : s.Follows l) (id : TrackId) : (s.remove id).Follows (l ++ [.dropped id]) := by
  refine h.sublist List.filter_sublist nofun fun id' => ?_
  rw [holds_concat_dropped, ← h.mem_iff, trackIds, trackIds]
  simp only [List.mem_map, mem_tracks_remove]
  constructor
  · rintro ⟨t, ⟨ht, hne⟩, rfl⟩
    exact ⟨⟨t, ht, rfl⟩, hne⟩
  · rintro ⟨⟨t, ht, rfl⟩, hne⟩
    exact ⟨t, ⟨ht, hne⟩, rfl⟩

/-- A track whose id is held is not taken in: the handle that is there stays. -/
theorem add_of_holds (h : s.Follows l) {t : Track} (hheld : Holds l t.id) :
    (s.add t).Follows (l ++ [offered t]) := by
  have hadd : s.add t = s := if_pos (contains_iff_mem_trackIds.2 ((h.mem_iff t.id).2 hheld))
  rw [hadd]
  refine h.sublist (.refl _) (fun t' he => by cases he; exact hheld) fun id => ?_
  rw [holds_concat_offered, ← h.mem_iff]
  refine (or_iff_left_of_imp ?_).symm
  rintro rfl
  exact (h.mem_iff t.id).2 hheld

/-- A track whose id is not held comes behind the others. -/
theorem add_of_not_holds (h : s.Follows l) {t : Track} (hnew : ¬ Holds l t.id) :
    (s.add t).Follows (l ++ [offered t]) := by
  have hne : ∀ t' ∈ s.tracks, t'.id ≠ t.id := fun t' ht' he =>
    hnew ((h.mem_iff t.id).1 (he ▸ List.mem_map_of_mem ht'))
  have hadd := tracks_add hne
  refine ⟨nodup_trackIds_add h.nodup t, fun id => ?mem_iff, fun t' ht' => ?last, ?ordered⟩
  case mem_iff =>
    rw [holds_concat_offered, ← h.mem_iff, trackIds, hadd, List.map_append, List.mem_append,
      List.map_singleton, List.mem_singleton, eq_comm (a := t.id)]
    rfl
  case last =>
    rw [hadd] at ht'
    rcases List.mem_append.1 ht' with ht' | ht'
    · obtain ⟨i, hi⟩ := h.last t' ht'
      exact ⟨i, (lastTakesIn_concat_of_ne (hne t' ht')).2 hi⟩
    · obtain rfl := List.mem_singleton.1 ht'
      exact ⟨l.length, (lastTakesIn_concat_self hnew).2 rfl⟩
  case ordered =>
    rw [hadd]
    refine List.pairwise_append.2 ⟨?_, List.pairwise_singleton _ _, ?_⟩
    · refine h.ordered.imp_of_mem fun ht₁ ht₂ hlt => ?_
      simpa only [lastTakesIn_concat_of_ne (hne _ ht₁), lastTakesIn_concat_of_ne (hne _ ht₂)]
        using hlt
    · intro t₁ ht₁ t₂ ht₂ i j hi hj
      obtain rfl := List.mem_singleton.1 ht₂
      rw [(lastTakesIn_concat_self hnew).1 hj]
      exact ((lastTakesIn_concat_of_ne (hne t₁ ht₁)).1 hi).1.lt_length

theorem add (h : s.Follows l) (t : Track) : (s.add t).Follows (l ++ [offered t]) := by
  by_cases hheld : Holds l t.id
  · exact h.add_of_holds hheld
  · exact h.add_of_not_holds hheld

/-- A stream of a list of tracks follows the list. -/
theorem ofTracks (id : StreamId) (tracks : List Track) :
    (ofTracks id tracks).Follows (tracks.map .offered) := by
  induction tracks using List.reverseRecOn with
  | nil => exact empty id
  | append_singleton tracks t ih =>
    rw [Stream.ofTracks, List.foldl_append, List.map_append]
    exact ih.add t

end Follows

end VideoCall.Media.Stream

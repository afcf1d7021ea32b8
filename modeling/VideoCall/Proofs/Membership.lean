import Mathlib.Data.List.Induction
import VideoCall.Membership.History

/-!
# A membership shows its history

Whether the participant is ready, under which name, who made the room, and by which names the others
go: each of these goes by its own part of the history. Being ready goes by what came after the last
stop, the names by the last roster and the participants who left after it, and neither has a bearing
on the other.

## Main results

* `Membership.nickname_run` : the participant is ready under the name of the latest start, if no
  stop came after it.
* `Membership.nicknames_run` : the names are those of the last roster, less the participants who
  left after it.
* `Membership.follows_run` : all that a membership shows, in every history.
-/

namespace VideoCall.Membership

open Wire

variable (m : Membership) (changes : List Change)

theorem run_concat (c : Change) : m.run (changes ++ [c]) = (m.run changes).apply c := by
  unfold run
  rw [List.foldl_append]
  rfl

theorem run_append (l : List Change) : m.run (changes ++ l) = (m.run changes).run l :=
  List.foldl_append

/-! ### What came last -/

theorem since_concat_of_kind {kind : Change → Bool} {c : Change} (h : kind c = true) :
    since kind (changes ++ [c]) = [] :=
  List.rtakeWhile_concat_neg _ _ c (by simp [h])

theorem since_concat {kind : Change → Bool} {c : Change} (h : kind c = false) :
    since kind (changes ++ [c]) = since kind changes ++ [c] :=
  List.rtakeWhile_concat_pos _ _ c (by simp [h])

variable {α : Type} (f : Change → Option α)

theorem filterMap_concat (c : Change) :
    (changes ++ [c]).filterMap f = changes.filterMap f ++ (f c).toList := by
  rw [List.filterMap_append]
  cases h : f c with
  | none => rw [List.filterMap_cons_none h]; rfl
  | some a => rw [List.filterMap_cons_some h]; rfl

theorem getLast?_filterMap_concat (c : Change) :
    ((changes ++ [c]).filterMap f).getLast? = (f c).or (changes.filterMap f).getLast? := by
  rw [filterMap_concat, List.getLast?_append]
  cases f c <;> rfl

/-- What came last since a change of some kind came last at all. -/
theorem getLast?_filterMap_of_since {kind : Change → Bool} {a : α}
    (h : ((since kind changes).filterMap f).getLast? = some a) :
    (changes.filterMap f).getLast? = some a := by
  obtain ⟨before, hbefore⟩ := List.rtakeWhile_suffix (fun c => !kind c) changes
  rw [← hbefore, List.filterMap_append, List.getLast?_append]
  exact congrArg (Option.or · _) h

/-! ### Being ready -/

theorem room_run : (m.run changes).room = m.room :=
  List.foldlRecOn changes apply (motive := fun m' => m'.room = m.room) rfl
    fun _ h c _ => by cases c <;> exact h

theorem user_run : (m.run changes).user = m.user :=
  List.foldlRecOn changes apply (motive := fun m' => m'.user = m.user) rfl
    fun _ h c _ => by cases c <;> exact h

/-- The participant is ready under the name of the latest start, if no stop came after it. -/
theorem nickname_run (room : RoomId) (user : UserId) :
    ((fresh room user).run changes).nickname =
      ((since Change.isStop changes).filterMap Change.nickname?).getLast? := by
  induction changes using List.reverseRecOn with
  | nil => rfl
  | append_singleton changes c ih =>
    rw [run_concat]
    cases c with
    | start nickname =>
      rw [since_concat _ rfl, getLast?_filterMap_concat]
      rfl
    | stop =>
      rw [since_concat_of_kind _ rfl]
      rfl
    | _ =>
      rw [since_concat _ rfl, getLast?_filterMap_concat]
      exact ih

/-- The participant is ready if, and only if, they started after the last stop. -/
theorem active_run_iff (room : RoomId) (user : UserId) :
    ((fresh room user).run changes).active = true ↔
      ∃ nickname, .start nickname ∈ since Change.isStop changes := by
  rw [active, nickname_run, Option.isSome_iff_ne_none, Ne, List.getLast?_eq_none_iff]
  constructor
  · intro h
    obtain ⟨nickname, hmem⟩ := List.exists_mem_of_ne_nil _ h
    obtain ⟨c, hc, hnickname⟩ := List.mem_filterMap.1 hmem
    cases c with
    | start nickname' => exact ⟨nickname', hc⟩
    | _ => cases hnickname
  · rintro ⟨nickname, hmem⟩
    exact List.ne_nil_of_mem (List.mem_filterMap.2 ⟨_, hmem, rfl⟩)

/-! ### What the relay told -/

/-- The creator is the one of whom it was learnt last, no matter if the participant was ready. -/
theorem creator_run (room : RoomId) (user : UserId) :
    ((fresh room user).run changes).creator = (changes.filterMap Change.creator?).getLast? := by
  induction changes using List.reverseRecOn with
  | nil => rfl
  | append_singleton changes c ih =>
    rw [run_concat, getLast?_filterMap_concat]
    cases c with
    | roomMade creator => rfl
    | _ => exact ih

theorem told_concat (c : Change) :
    told (changes ++ [c]) = c.nicknames?.getD (told changes) := by
  rw [told, getLast?_filterMap_concat]
  cases c.nicknames? <;> rfl

theorem leavers_concat {c : Change} (h : c.isRoster = false) :
    leavers (changes ++ [c]) = leavers changes ++ c.leaver?.toList := by
  rw [leavers, since_concat _ h, filterMap_concat]
  rfl

/-- The names are those of the last roster, less the participants who left after it. -/
theorem nicknames_run (room : RoomId) (user : UserId) :
    ((fresh room user).run changes).nicknames =
      (told changes).filter fun u _ => !(leavers changes).contains u := by
  induction changes using List.reverseRecOn with
  | nil => exact Table.ext_get? fun _ => rfl
  | append_singleton changes c ih =>
    have hsame (htold : c.nicknames? = none) (hroster : c.isRoster = false)
        (hleaver : c.leaver? = none)
        (h : (((fresh room user).run changes).apply c).nicknames =
          ((fresh room user).run changes).nicknames) :
        (((fresh room user).run changes).apply c).nicknames =
          (told (changes ++ [c])).filter fun u _ => !(leavers (changes ++ [c])).contains u := by
      rw [h, ih, told_concat, leavers_concat _ hroster, htold, hleaver, Option.toList_none,
        List.append_nil]
      rfl
    rw [run_concat]
    cases c with
    | meet r known =>
      have hleavers : leavers (changes ++ [.meet r known]) = [] := by
        rw [leavers, since_concat_of_kind _ rfl]
        rfl
      rw [told_concat, hleavers]
      refine Table.ext_get? fun u => ?_
      rw [Table.get?_filter]
      change r.nicknames.get? u = (r.nicknames.get? u).filter fun _ => true
      cases r.nicknames.get? u <;> rfl
    | dropName u =>
      rw [told_concat, leavers_concat _ rfl]
      refine Table.ext_get? fun v => ?_
      change (((fresh room user).run changes).nicknames.erase u).get? v = _
      rw [Table.get?_erase, ih, Table.get?_filter, Table.get?_filter]
      by_cases h : compare v u = .eq
      · obtain rfl := Std.LawfulEqOrd.eq_of_compare h
        rw [if_pos h]
        simp [Change.leaver?]
      · have hne : v ≠ u := fun heq => h (heq ▸ Std.ReflCmp.compare_self)
        rw [if_neg h]
        simp [Change.leaver?, Change.nicknames?, hne]
    | _ => exact hsame rfl rfl rfl rfl

/-- What follows on a change that leaves the names alone knows the same names without it. -/
theorem nicknames_run_eq_of_apply {c : Change} (h : (m.apply c).nicknames = m.nicknames) :
    ((m.apply c).run changes).nicknames = (m.run changes).nicknames := by
  induction changes using List.reverseRecOn with
  | nil => exact h
  | append_singleton changes d ih =>
    rw [run_concat, run_concat]
    cases d with
    | meet r known => rfl
    | dropName user => exact congrArg (Table.erase · user) ih
    | _ => exact ih

/-! ### All of it -/

/-- A participant who is ready answers the news that the room was made, under the name of the latest
start. -/
theorem roomMade_run (room : RoomId) (user : UserId) {creator : UserId} {sent : Outgoing}
    (h : (((fresh room user).run changes).roomMade creator).2 = some sent) :
    ∃ nickname, (changes.filterMap Change.nickname?).getLast? = some nickname ∧
      sent = .ready room user nickname := by
  obtain ⟨nickname, hnickname, rfl⟩ := Option.map_eq_some_iff.1 h
  rw [nickname_run] at hnickname
  refine ⟨nickname, getLast?_filterMap_of_since _ _ hnickname, ?_⟩
  rw [room_run, user_run]
  rfl

/-- In every history:

* the participant is ready if, and only if, they started after the last stop;
* what counts is the news that the room was made, what became of a wish to record, and, while the
  participant is ready, everything else;
* the creator is the one of whom it was learnt last;
* to the news that the room was made the participant has an answer if, and only if, they are ready:
  that they are, in their room, as themselves, and under the name of the latest start;
* the names are those of the last roster, less the participants who left after it;
* and they are the same without any start or stop of the history. -/
theorem follows_run (room : RoomId) (user : UserId) (changes : List Change) :
    let m := (fresh room user).run changes
    (m.active = true ↔ ∃ nickname, .start nickname ∈ since Change.isStop changes) ∧
    (∀ e, m.admits e = true ↔
      (∃ creator, e = .roomCreated creator) ∨ (∃ r, e = .recordOutcome r) ∨ m.active = true) ∧
    m.creator = (changes.filterMap Change.creator?).getLast? ∧
    (∀ creator, (m.roomMade creator).2.isSome = m.active ∧
      ∀ sent, (m.roomMade creator).2 = some sent →
        ∃ nickname, (changes.filterMap Change.nickname?).getLast? = some nickname ∧
          sent = .ready room user nickname) ∧
    m.nicknames = (told changes).filter (fun u _ => !(leavers changes).contains u) ∧
    ∀ before c after, changes = before ++ c :: after →
      (c = .stop ∨ ∃ nickname, c = .start nickname) →
      m.nicknames = ((fresh room user).run (before ++ after)).nicknames := by
  intro m
  refine ⟨active_run_iff changes room user, ?_, creator_run changes room user,
    fun creator => ⟨Option.isSome_map, fun sent h => roomMade_run changes room user h⟩,
    nicknames_run changes room user, ?_⟩
  · intro e
    cases e <;> simp [admits]
  · rintro before c after rfl hc
    have happly : (((fresh room user).run before).apply c).nicknames =
        ((fresh room user).run before).nicknames := by
      obtain rfl | ⟨nickname, rfl⟩ := hc <;> rfl
    rw [run_append]
    refine (congrArg nicknames (run_append _ before (c :: after))).trans ?_
    exact nicknames_run_eq_of_apply _ after happly

end VideoCall.Membership

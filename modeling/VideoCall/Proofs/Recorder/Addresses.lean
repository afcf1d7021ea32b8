import Mathlib.Data.List.Infix
import VideoCall.Recorder.Join

/-!
# Addresses of join requests

The address of a request writes the room and the participant in a row, with the word `join` between
them. Ids are written as they are, so the word can also come from an id: then one address stands for
two participants, and the room of one of them has taken in the front of the other one's id. There is
no other way for an address to stand for two participants, and slashes at the end of the base make
no difference.

## Main definitions

* `JoinRequest.Absorbs` : a room has taken in the front of the id of a participant of another room.

## Main results

* `JoinRequest.url_eq_url_iff` : which requests have one address.
* `JoinRequest.url_eq_url_iff_of_no_slash` : they are for one participant, if rooms have no slashes.
* `JoinRequest.url_of_two_participants` : one address for two participants.
-/

namespace VideoCall.Recorder.JoinRequest

open Wire

/-! ### The base -/

/-- A text of as many slashes as the number says. -/
def slashes (n : Nat) : String := String.ofList (List.replicate n '/')

/-- Slashes at the end of the base do not count. -/
theorem trimmedBase_append_slashes (base : String) (n : Nat) :
    trimmedBase (base ++ slashes n) = trimmedBase base := by
  have hslash : ∀ c ∈ List.replicate n '/', decide (c = '/') = true := fun c hc =>
    decide_eq_true (List.eq_of_mem_replicate hc)
  rw [trimmedBase, trimmedBase, slashes, String.toList_append, String.toList_ofList,
    List.reverse_append, List.reverse_replicate, List.dropWhile_append_of_pos hslash]

/-! ### Room and participant -/

/-- What stands between the room and the participant. -/
def link : List Char := ['/', 'j', 'o', 'i', 'n', '/']

/-- The room of one participant is the room of another one, followed by the front of the other one's
id, up to a link in it. The link may share its first slash with the one before it. -/
def Absorbs (room user room' user' : String) : Prop :=
  (∃ between, room = room' ++ "/join/" ++ between ∧ user' = between ++ "/join/" ++ user) ∨
    room = room' ++ "/join" ∧ user' = "join/" ++ user

/-- A text that starts with a link and has a link further on either goes on after the first one
until it comes to the other, or the two share a slash. -/
theorem link_append_eq_iff {front user user' : List Char} :
    link ++ user' = front ++ (link ++ user) ↔
      front = [] ∧ user' = user ∨
        (∃ between, front = link ++ between ∧ user' = between ++ (link ++ user)) ∨
          front = ['/', 'j', 'o', 'i', 'n'] ∧ user' = ['j', 'o', 'i', 'n', '/'] ++ user := by
  rw [List.append_eq_append_iff]
  constructor
  · rintro (⟨between, rfl, rfl⟩ | ⟨rest, hlink, huser⟩)
    · exact Or.inr (Or.inl ⟨between, rfl, rfl⟩)
    · -- the second link begins inside the first one: only its last slash can be where it begins
      have hfront : front ∈ link.inits := (List.mem_inits front link).2 ⟨rest, hlink.symm⟩
      simp only [link, List.inits, List.map_cons, List.map_nil, List.mem_cons, List.not_mem_nil,
        or_false] at hfront
      rcases hfront with rfl | rfl | rfl | rfl | rfl | rfl | rfl <;>
        simp [link] at hlink <;> subst hlink <;> simp_all [link]
  · rintro (⟨rfl, rfl⟩ | ⟨between, rfl, rfl⟩ | ⟨rfl, rfl⟩)
    · exact Or.inr ⟨link, rfl, rfl⟩
    · exact Or.inl ⟨between, rfl, rfl⟩
    · exact Or.inr ⟨['/'], rfl, rfl⟩

theorem toList_link : "/join/".toList = link := by
  simp [link]

/-- One address stands for both participants if a room has absorbed the front of the other one's
id. -/
theorem Absorbs.joined_eq {room user room' user' : String} (h : Absorbs room user room' user') :
    room ++ ("/join/" ++ user) = room' ++ ("/join/" ++ user') := by
  rcases h with ⟨between, rfl, rfl⟩ | ⟨rfl, rfl⟩
  · simp only [String.append_assoc]
  · simp [← String.toList_inj]

/-- Of two rooms with one address for their participants, the one that goes on where the other one
ends has absorbed something, if it goes on at all. -/
theorem eq_or_absorbs {room user room' user' : String} {front : List Char}
    (hroom : room.toList = room'.toList ++ front)
    (huser : link ++ user'.toList = front ++ (link ++ user.toList)) :
    room = room' ∧ user = user' ∨ Absorbs room user room' user' := by
  rcases link_append_eq_iff.1 huser with ⟨rfl, h⟩ | ⟨between, rfl, h⟩ | ⟨rfl, h⟩
  · rw [List.append_nil] at hroom
    exact Or.inl ⟨String.toList_inj.1 hroom, (String.toList_inj.1 h).symm⟩
  · refine Or.inr (Or.inl ⟨String.ofList between, String.toList_inj.1 ?_, String.toList_inj.1 ?_⟩)
    · simpa [link] using hroom
    · simpa [link] using h
  · refine Or.inr (Or.inr ⟨String.toList_inj.1 ?_, String.toList_inj.1 ?_⟩)
    · simpa using hroom
    · simpa using h

/-- Room and participant in a row say who is meant, unless one of the rooms has absorbed the front
of the other participant's id. -/
theorem joined_eq_iff {room user room' user' : String} :
    room ++ ("/join/" ++ user) = room' ++ ("/join/" ++ user') ↔
      room = room' ∧ user = user' ∨ Absorbs room user room' user' ∨
        Absorbs room' user' room user := by
  constructor
  · intro h
    rw [← String.toList_inj] at h
    simp only [String.toList_append, toList_link] at h
    obtain ⟨front, hroom, huser⟩ | ⟨front, hroom, huser⟩ := List.append_eq_append_iff.1 h
    · rcases eq_or_absorbs hroom huser with ⟨rfl, rfl⟩ | habsorbs
      · exact Or.inl ⟨rfl, rfl⟩
      · exact Or.inr (Or.inr habsorbs)
    · exact (eq_or_absorbs hroom huser).imp_right Or.inl
  · rintro (⟨rfl, rfl⟩ | h | h)
    · rfl
    · exact h.joined_eq
    · exact h.joined_eq.symm

/-! ### The address -/

theorem url_eq (base : String) (room : RoomId) (user : UserId) (offer : Signal) :
    url ⟨base, room, user, offer⟩ =
      String.ofList (trimmedBase base) ++ "/api/sessions/" ++
        (room.text ++ ("/join/" ++ user.text)) := by
  simp only [url, String.append_assoc]

/-- Slashes at the end of the base do not change the address. -/
theorem url_append_slashes (base : String) (n : Nat) (room : RoomId) (user : UserId)
    (offer : Signal) :
    url ⟨base ++ slashes n, room, user, offer⟩ = url ⟨base, room, user, offer⟩ := by
  rw [url_eq, url_eq, trimmedBase_append_slashes]

/-- Over one base the address says who is meant, as far as room and participant in a row do. -/
theorem url_eq_iff_joined_eq (base : String) (room room' : RoomId) (user user' : UserId)
    (offer offer' : Signal) :
    url ⟨base, room, user, offer⟩ = url ⟨base, room', user', offer'⟩ ↔
      room.text ++ ("/join/" ++ user.text) = room'.text ++ ("/join/" ++ user'.text) := by
  rw [url_eq, url_eq, String.append_right_inj]

/-- A room that has absorbed anything has a slash in it. -/
theorem Absorbs.slash_mem {room user room' user' : String} (h : Absorbs room user room' user') :
    '/' ∈ room.toList := by
  rcases h with ⟨between, rfl, -⟩ | ⟨rfl, -⟩ <;> simp

/-- If there are no slashes in the rooms, the address says who is meant. -/
theorem url_eq_url_iff_of_no_slash (base : String) {room room' : RoomId}
    (hroom : '/' ∉ room.text.toList) (hroom' : '/' ∉ room'.text.toList) (user user' : UserId)
    (offer offer' : Signal) :
    url ⟨base, room, user, offer⟩ = url ⟨base, room', user', offer'⟩ ↔
      room = room' ∧ user = user' := by
  rw [url_eq_iff_joined_eq, joined_eq_iff, Ident.text_inj, Ident.text_inj]
  constructor
  · rintro (h | h | h)
    · exact h
    · exact absurd h.slash_mem hroom
    · exact absurd h.slash_mem hroom'
  · exact Or.inl

/-- Over one base, and whatever slashes are put at its end, two requests have one address exactly if
they are for one participant of one room, or if one of the rooms has absorbed the front of the other
participant's id. -/
theorem url_eq_url_iff (base : String) (n n' : Nat) (room room' : RoomId) (user user' : UserId)
    (offer offer' : Signal) :
    url ⟨base ++ slashes n, room, user, offer⟩ = url ⟨base ++ slashes n', room', user', offer'⟩ ↔
      room = room' ∧ user = user' ∨ Absorbs room.text user.text room'.text user'.text ∨
        Absorbs room'.text user'.text room.text user.text := by
  rw [url_append_slashes, url_append_slashes, url_eq_iff_joined_eq, joined_eq_iff, Ident.text_inj,
    Ident.text_inj]

/-- One address stands for a participant of one room and for another participant of another room. -/
theorem url_of_two_participants :
    ¬ ∀ (base : String) (room room' : RoomId) (user user' : UserId) (offer offer' : Signal),
      room ≠ room' ∨ user ≠ user' →
        url ⟨base, room, user, offer⟩ ≠ url ⟨base, room', user', offer'⟩ := by
  intro h
  have hrooms : (⟨"a"⟩ : RoomId) ≠ ⟨"a/join/b"⟩ := by decide
  refine h "http://rec" ⟨"a"⟩ ⟨"a/join/b"⟩ ⟨"b/join/c"⟩ ⟨"c"⟩ ⟨.null⟩ ⟨.null⟩ (Or.inl hrooms) ?_
  simp [url, ← String.toList_inj]

end VideoCall.Recorder.JoinRequest

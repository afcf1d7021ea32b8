import VideoCall.Wire.Incoming
import VideoCall.Wire.Outgoing

/-!
# Membership of a room

A participant makes the room exist, says under which name they are ready, and leaves. In between the
relay sends rosters. What the relay sends counts only while the participant is ready, except for the
news that the room was made and what became of a wish to record.

## Main definitions

* `Membership` : what is known of the room and of one's own part in it.
* `Membership.start`, `Membership.stop` : being ready, and no longer.
* `Membership.admits` : which messages count.
* `Membership.meet`, `RosterUpdate` : what a roster means.
-/

namespace VideoCall

open Wire

/-- What a participant knows of the room and of their own part in it. -/
structure Membership where
  room : RoomId
  user : UserId
  /-- The name under which the participant is ready; none while they are not. -/
  nickname : Option String
  /-- The participant who made the room, as far as it is known. -/
  creator : Option UserId
  /-- The names that participants go by. -/
  nicknames : Table UserId String

/-- What a roster means. -/
structure RosterUpdate where
  /-- Whether this participant makes the offers. -/
  isInitiator : Bool
  /-- The participants to connect to, in the order of the roster. -/
  newPeers : List UserId
  /-- How many participants go by a name. -/
  connectedUsers : Nat
  recording : Bool
  /-- Where the recording service is, if the relay says so. -/
  recordUrl : Option String
  deriving DecidableEq

/-- A text, unless it is empty. -/
def nonempty (s : String) : Option String := if s = "" then none else some s

namespace Membership

/-- Nothing is known of the room yet. -/
def fresh (room : RoomId) (user : UserId) : Membership := ⟨room, user, none, none, ∅⟩

/-- Whether the participant is ready. -/
def active (m : Membership) : Bool := m.nickname.isSome

/-! ### What the participant says -/

/-- The room should exist. -/
def createRoom (m : Membership) : Outgoing := .createRoom m.room m.user

/-- The participant leaves. -/
def farewell (m : Membership) : Outgoing := .hangUp m.user

/-- The participant wishes to start or stop the recording. -/
def wish (m : Membership) (recording : Bool) : Outgoing := .record recording m.user

/-- The participant is ready under the given name. -/
def start (m : Membership) (nickname : String) : Membership × Outgoing :=
  ({ m with nickname := some nickname }, .ready m.room m.user nickname)

/-- The participant is no longer ready. -/
def stop (m : Membership) : Membership := { m with nickname := none }

/-! ### What the relay says -/

/-- Whether a message counts. -/
def admits (m : Membership) : Incoming → Bool
  | .roomCreated _ => true
  | .recordOutcome _ => true
  | .roster _ => m.active
  | .signal _ _ => m.active
  | .announcements _ _ => m.active
  | .hangUp _ => m.active

/-- The room was made: a participant who is ready says so again. -/
def roomMade (m : Membership) (creator : UserId) : Membership × Option Outgoing :=
  ({ m with creator := some creator }, m.nickname.map fun name => .ready m.room m.user name)

/-- A participant left. -/
def dropName (m : Membership) (user : UserId) : Membership :=
  { m with nicknames := m.nicknames.erase user }

/-- The members of the list that `keep` admits, each at its first place only. -/
def firsts (keep : UserId → Bool) (users : List UserId) : List UserId :=
  users.foldl
    (fun found user => if keep user && !found.contains user then found ++ [user] else found) []

theorem keep_of_mem_firsts {keep : UserId → Bool} {users : List UserId} {user : UserId}
    (h : user ∈ firsts keep users) : keep user = true := by
  refine List.foldlRecOn users _ (motive := fun found => ∀ u ∈ found, keep u = true)
    (fun _ hu => absurd hu List.not_mem_nil) (fun found hfound u _ v hv => ?_) user h
  split at hv
  · rename_i hkeep
    rcases List.mem_append.1 hv with hv | hv
    · exact hfound v hv
    · obtain rfl := List.mem_singleton.1 hv
      exact (Bool.and_eq_true_iff.1 hkeep).1
  · exact hfound v hv

/-- A roster came in, while there are connections to the known participants. -/
def meet (m : Membership) (r : Roster) (known : UserId → Bool) : Membership × RosterUpdate :=
  ({ m with nicknames := r.nicknames },
    { isInitiator := r.initiator = m.user
      newPeers := firsts (fun user => user ≠ m.user && !known user) r.peers
      connectedUsers := r.nicknames.size
      recording := r.recording
      recordUrl := nonempty r.recordUrl })

/-- A roster leads to connections to others only. -/
theorem ne_user_of_mem_newPeers {m : Membership} {r : Roster} {known : UserId → Bool}
    {user : UserId} (h : user ∈ (m.meet r known).2.newPeers) : user ≠ m.user :=
  of_decide_eq_true (Bool.and_eq_true_iff.1 (keep_of_mem_firsts h)).1

end Membership

end VideoCall

import Mathlib.Data.List.DropRight
import VideoCall.Membership

/-!
# Histories of a membership

All that can happen to a membership, as data. What counts in a history is often only what came after
the last change of some kind, or the last change of some kind itself.

## Main definitions

* `Membership.Change` : one change, with its arguments.
* `Membership.apply`, `Membership.run` : what one change, or several in a row, lead to.
* `Membership.since` : what came after the last change of some kind.
* `Membership.told`, `Membership.leavers` : the names of the last roster, and who left after it.
-/

namespace VideoCall.Membership

open Wire

/-- One change of a membership. -/
inductive Change
  | start (nickname : String)
  | stop
  | roomMade (creator : UserId)
  | meet (r : Roster) (known : UserId → Bool)
  | dropName (user : UserId)

namespace Change

def isStop : Change → Bool
  | stop => true
  | _ => false

def isRoster : Change → Bool
  | meet _ _ => true
  | _ => false

/-- The name under which a participant is ready from this change on. -/
def nickname? : Change → Option String
  | start nickname => some nickname
  | _ => none

/-- The participant of whom it is learnt that they made the room. -/
def creator? : Change → Option UserId
  | roomMade creator => some creator
  | _ => none

/-- The names that a roster tells. -/
def nicknames? : Change → Option (Table UserId String)
  | meet r _ => some r.nicknames
  | _ => none

/-- The participant who left. -/
def leaver? : Change → Option UserId
  | dropName user => some user
  | _ => none

end Change

/-- What a change leads to. -/
def apply (m : Membership) : Change → Membership
  | .start nickname => (m.start nickname).1
  | .stop => m.stop
  | .roomMade creator => (m.roomMade creator).1
  | .meet r known => (m.meet r known).1
  | .dropName user => m.dropName user

/-- What several changes in a row lead to. -/
def run (m : Membership) (changes : List Change) : Membership := changes.foldl apply m

/-- The changes after the last one of a kind; all of them, if there is none of this kind. -/
def since (kind : Change → Bool) (changes : List Change) : List Change :=
  changes.rtakeWhile fun c => !kind c

/-- The names that the last roster told, if there was one. -/
def told (changes : List Change) : Table UserId String :=
  (changes.filterMap Change.nicknames?).getLast?.getD ∅

/-- The participants who left after the last roster. -/
def leavers (changes : List Change) : List UserId :=
  (since Change.isRoster changes).filterMap Change.leaver?

end VideoCall.Membership

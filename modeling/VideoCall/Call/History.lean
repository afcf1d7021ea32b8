import VideoCall.Call.Reaction

/-!
# Histories of a call

All that can happen to a call, as data. A call deals with inputs at certain times, and what the
media stack refuses may change from one input to the next. The effects of a history are those of its
inputs, in order.

## Main definitions

* `Call.Moment` : an input, the time it is dealt with, and what the media stack refuses then.
* `Call.meet`, `Call.run` : what one moment, or several in a row, lead to.
* `Call.Reachable` : the states between two inputs.
-/

namespace VideoCall.Call

open Outcome Peer

/-- An input, the time it is dealt with, and what the media stack refuses then. -/
structure Moment where
  now : Nat
  refusals : Refusals
  input : Input

/-- What a moment leads to. -/
def meet (c : Call) (m : Moment) : Outcome Call :=
  react { c with board := { c.board with refusals := m.refusals } } m.now m.input

/-- What several moments in a row lead to. -/
def run (c : Call) (moments : List Moment) : Outcome Call := forEach meet moments c

theorem value_run_concat (c : Call) (moments : List Moment) (m : Moment) :
    (c.run (moments ++ [m])).value = ((c.run moments).value.meet m).value :=
  value_forEach_append meet moments [m] c

theorem effects_run_concat (c : Call) (moments : List Moment) (m : Moment) :
    (c.run (moments ++ [m])).effects =
      (c.run moments).effects ++ ((c.run moments).value.meet m).effects := by
  refine (effects_forEach_append meet moments [m] c).trans ?_
  rw [forEach_cons, effects_bind, forEach_nil, effects_pure, List.append_nil]
  rfl

/-- The states of calls between two inputs. -/
def Reachable (c : Call) : Prop :=
  ∃ (s : Settings) (room : RoomId) (user : UserId) (urls : Media.UrlSource) (moments : List Moment),
    c = ((fresh s room user urls .none).run moments).value

theorem Reachable.run (s : Settings) (room : RoomId) (user : UserId) (urls : Media.UrlSource)
    (moments : List Moment) : Reachable ((fresh s room user urls .none).run moments).value :=
  ⟨s, room, user, urls, moments, rfl⟩

end VideoCall.Call

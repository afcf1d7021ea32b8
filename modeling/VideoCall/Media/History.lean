import Mathlib.Logic.Function.Basic
import VideoCall.Media.Stream

/-!
# Histories of streams

All that can happen to streams and their tracks, as data. Which tracks are in a stream is a matter
of the stream alone: a copy of it has the same tracks, and goes its own way from then on. Whether a
track is stopped is a matter of its handle, in whatever streams the track is.

## Main definitions

* `Media.Collection` : streams, each under a number, and the handles that are stopped.
* `Media.Collection.Change` : one change, with its arguments.
* `Media.Collection.apply`, `Media.Collection.run` : what one change, or several in a row, lead to.
* `Media.Collection.calls` : the calls that stop tracks, each with its answer.
* `Media.Stream.Event`, `Media.Collection.lineage` : what happened to a stream, and to the stream
  that it is a copy of before it was copied.
-/

namespace VideoCall.Media

/-- The calls that stop the given tracks in turn, each with its answer. -/
def Stopped.answers (s : Stopped) : List Track → List (Track × Bool)
  | [] => []
  | t :: ts => (t, s.stops t) :: (s.stop t).answers ts

/-- What happens to the tracks of a stream. -/
inductive Stream.Event
  /-- A track is offered, whether the stream takes it in or not. -/
  | offered (t : Track)
  /-- The track of an id is to go, whether it is there or not. -/
  | dropped (id : TrackId)
  deriving DecidableEq

/-- Any number of streams, and the handles that are stopped. -/
structure Collection where
  streams : Nat → Stream
  stopped : Stopped

namespace Collection

/-- All streams are empty, and no handle is stopped. -/
def start (ids : Nat → StreamId) : Collection := ⟨fun n => .empty (ids n), .none⟩

/-- The collection with another stream under a number. -/
def put (c : Collection) (n : Nat) (s : Stream) : Collection :=
  { c with streams := Function.update c.streams n s }

/-- One change of a collection. -/
inductive Change
  | gather (n : Nat) (id : StreamId) (tracks : List Track)
  | copy (n source : Nat)
  | add (n : Nat) (t : Track)
  | remove (n : Nat) (id : TrackId)
  | stopStream (n : Nat)
  | stopTrack (t : Track)

/-- The stream whose tracks are up to a change. -/
def Change.target? : Change → Option Nat
  | gather n _ _ | copy n _ | add n _ | remove n _ => some n
  | stopStream _ | stopTrack _ => none

/-- What a change leads to. -/
def apply (c : Collection) : Change → Collection
  | .gather n id tracks => c.put n (.ofTracks id tracks)
  | .copy n source => c.put n (c.streams source)
  | .add n t => c.put n ((c.streams n).add t)
  | .remove n id => c.put n ((c.streams n).remove id)
  | .stopStream n => { c with stopped := c.stopped.stopAll (c.streams n) }
  | .stopTrack t => { c with stopped := c.stopped.stop t }

/-- What several changes in a row lead to. -/
def run (c : Collection) (changes : List Change) : Collection := changes.foldl apply c

/-- The tracks that a change tells to stop, in order. -/
def told (c : Collection) : Change → List Track
  | .stopStream n => (c.streams n).tracks
  | .stopTrack t => [t]
  | _ => []

/-- The calls that stop tracks in several changes in a row, each with its answer. -/
def calls (c : Collection) : List Change → List (Track × Bool)
  | [] => []
  | change :: changes => c.stopped.answers (c.told change) ++ (c.apply change).calls changes

/-- What happened to each stream, with one more change: a stream that is put together begins anew,
and a copy takes over what happened to the stream that it is a copy of. -/
def Change.record (lines : Nat → List Stream.Event) : Change → Nat → List Stream.Event
  | gather n _ tracks => Function.update lines n (tracks.map .offered)
  | copy n source => Function.update lines n (lines source)
  | add n t => Function.update lines n (lines n ++ [.offered t])
  | remove n id => Function.update lines n (lines n ++ [.dropped id])
  | stopStream _ | stopTrack _ => lines

/-- What happened to each stream in several changes in a row, from the start. -/
def lineage (changes : List Change) : Nat → List Stream.Event :=
  changes.foldl Change.record fun _ => []

end Collection

end VideoCall.Media

import VideoCall.Gallery.Announce
import VideoCall.Gallery.Locals

/-!
# Histories of the gallery

All that can happen to a gallery, as data. A gallery that is met with in a call is one that some
list of changes leads to from the empty gallery, whatever the renderer mints or refuses.

## Main definitions

* `Gallery.Change` : one change, with its arguments.
* `Gallery.apply`, `Gallery.run` : what one change, or several in a row, lead to.
* `Gallery.Reachable` : the galleries that changes lead to.
-/

namespace VideoCall.Gallery

open Media Wire Outcome

/-- One change of a gallery. -/
inductive Change
  | addTrack (slot : Slot) (t : Track) (raw : StreamId)
  | removeTrack (id : TrackId)
  | unassociate (user : UserId)
  | removePeer (peer : UserId)
  | announce (sender : UserId) (batch : List Announcement)
  | reset
  | addLocal (recording : Bool) (type : StreamType) (stream : Stream)
  | removeLocal (recording : Bool) (type : StreamType)
  | setMirror (type : StreamType) (t : Track)

/-- What a change leads to. -/
def apply (g : Gallery) : Change → Outcome Gallery
  | .addTrack slot t raw => g.addTrack slot t raw
  | .removeTrack id => g.removeTrack id
  | .unassociate user => g.unassociate user
  | .removePeer peer => g.removePeer peer
  | .announce sender batch => g.announce sender batch
  | .reset => g.reset
  | .addLocal recording type stream => (·.1) <$> g.addLocal recording type stream
  | .removeLocal recording type => (·.1) <$> g.removeLocal recording type
  | .setMirror type t => pure (g.setMirror type t)

/-- What several changes in a row lead to. -/
def run (g : Gallery) (changes : List Change) : Outcome Gallery := forEach apply changes g

theorem value_run_append (g : Gallery) (l m : List Change) :
    (g.run (l ++ m)).value = ((g.run l).value.run m).value :=
  value_forEach_append apply l m g

theorem effects_run_append (g : Gallery) (l m : List Change) :
    (g.run (l ++ m)).effects = (g.run l).effects ++ ((g.run l).value.run m).effects :=
  effects_forEach_append apply l m g

/-- The galleries that changes lead to from the empty one, whatever the renderer mints or
refuses. -/
def Reachable (g : Gallery) : Prop :=
  ∃ (urls : UrlSource) (changes : List Change), g = ((empty urls).run changes).value

/-- A property of the empty gallery that every change keeps is one of all galleries that changes
lead to. -/
theorem Reachable.induction {p : Gallery → Prop}
    (start : ∀ urls, p (Gallery.empty urls))
    (step : ∀ g change, p g → p (g.apply change).value) {g : Gallery} (h : g.Reachable) : p g := by
  obtain ⟨urls, changes, rfl⟩ := h
  exact forEach_induction (start urls) fun g hg change _ => step g change hg

end VideoCall.Gallery

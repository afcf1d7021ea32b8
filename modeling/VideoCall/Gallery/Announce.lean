import VideoCall.Gallery.Tracks

/-!
# Announcements

A batch of announcements is the sender's complete description of its slots. It is applied in three
phases: first the tracks whose slots are no longer described are withdrawn, then the batch takes the
place of what the sender announced before, and at last the described tracks that are here move to
where they belong. So a stale attribution never stands beside the new one, and a batch applied twice
changes nothing.

## Main definitions

* `Gallery.undescribed` : the rendered tracks of a sender that a batch does not describe.
* `Gallery.follow` : moves the track in a slot to where it is announced.
* `Gallery.announce` : applies a batch.
-/

namespace VideoCall.Gallery

open Wire Outcome

/-- The rendered tracks of a sender whose slots the given announcements do not describe. -/
def undescribed (g : Gallery) (sender : UserId) (news : Announcements) : List TrackId :=
  (g.slots.entries.filter fun (slot, h) =>
    slot.peer = sender && h.attribution.isSome && !news.contains slot).map fun (_, h) => h.track.id

/-- A track is no longer rendered, because its sender does not describe it. -/
def withdraw (g : Gallery) (id : TrackId) : Outcome Gallery := do
  let g ← g.removeTrack id
  count .tracksWithdrawn
  return g

/-- The track in a slot moves to where it is announced. An announcement for an empty slot waits for
the track. -/
def follow (g : Gallery) (news : Slot × Announcement) : Outcome Gallery :=
  let (slot, m) := news
  match g.slots.get? slot with
  | none => pure g
  | some h =>
    match h.attribution with
    | none => g.addTrack slot h.track m.stream
    | some a =>
      if a = ⟨m.user, m.stream⟩ then pure g
      else do
        let g ← g.removeTrack h.track.id
        g.addTrack slot h.track m.stream

/-- Applies a sender's batch. -/
def announce (g : Gallery) (sender : UserId) (batch : List Announcement) : Outcome Gallery := do
  let news := Announcements.ofBatch sender batch
  let g ← forEach withdraw (g.undescribed sender news) g
  let g := { g with announced := g.announced.replace sender news }
  forEach follow news.entries g

end VideoCall.Gallery

import VideoCall.Effect

/-!
# Tracks in the gallery

Received tracks come and go. A track that arrives is attributed once, at its arrival, and sits in
one slot and in one stream: if it sat elsewhere before, it moves. A track that is taken out of its
stream keeps its slot, so that a later announcement can bring it back. A stream is shown as long as
it holds a track, and its URL lives exactly as long.

## Main definitions

* `Gallery.attach`, `Gallery.detach` : a track comes to a stream, or leaves it.
* `Gallery.addTrack`, `Gallery.removeTrack` : a track arrives in a slot, or is no longer rendered.
* `Gallery.unassociate` : a participant's streams go, and the slots of their tracks stay.
* `Gallery.removePeer` : all slots of a connection go.
* `Gallery.reset` : everything stops and goes.
-/

namespace VideoCall.Gallery

open Media Outcome

/-! ### Small steps -/

/-- Releases a URL, if there is one. -/
def revoke (url : Option Url) : Outcome Unit := forSome url fun url => emit (.url (.revoked url))

/-- Tells all tracks of a stream to stop. -/
def stopAll (m : Stream) : Outcome Unit := emitAll (m.tracks.map .stopped)

/-- Shows how many streams there are. -/
def showCount (g : Gallery) : Outcome Unit := gauge .remoteStreams g.streamCount

/-- The streams with a track added to the one of the given id. -/
def addTo (stream : StreamId) (t : Track) (l : List RemoteStream) : List RemoteStream :=
  l.map fun r => if r.id = stream then { r with stream := r.stream.add t } else r

/-- The streams with a track taken from the one of the given id, which goes if it held no other. -/
def removeFrom (stream : StreamId) (id : TrackId) (l : List RemoteStream) : List RemoteStream :=
  (l.map fun r => if r.id = stream then { r with stream := r.stream.remove id } else r).filter
    fun r => !r.stream.isEmpty

/-- The table with a participant's entry in place; a participant without a stream is not shown. -/
def setShown (users : Table UserId Shown) (user : UserId) (s : Shown) : Table UserId Shown :=
  if s.streams.isEmpty then users.erase user else users.insert user s

/-- Puts a track into the stream it is attributed to. A stream that was not shown before is given a
URL. -/
def attach (g : Gallery) (a : Attribution) (t : Track) : Outcome Gallery :=
  let shown := (g.users.get? a.user).getD ⟨a.user, []⟩
  if shown.streams.any fun r => r.id = a.stream then
    pure { g with
      users := g.users.insert a.user { shown with streams := addTo a.stream t shown.streams } }
  else do
    emit (.url (g.urls.event a.stream))
    let fresh : RemoteStream := ⟨.ofTracks a.stream [t], a.stream, g.urls.mint? a.stream⟩
    return { g with
      users := g.users.insert a.user { shown with streams := shown.streams ++ [fresh] }
      urls := g.urls.next a.stream }

/-- Takes a track from the stream it is attributed to. The URL of a stream without a track is
released. -/
def detach (g : Gallery) (a : Attribution) (id : TrackId) : Outcome Gallery :=
  match g.users.get? a.user with
  | none => do
    emit (.missed (.user a))
    return g
  | some shown =>
    match shown.streams.find? fun r => r.id = a.stream with
    | none => do
      emit (.missed (.stream a))
      return g
    | some r => do
      when (!r.stream.contains id) (emit (.missed (.track a id)))
      when (r.stream.remove id).isEmpty (revoke r.url)
      let left := removeFrom a.stream id shown.streams
      return { g with users := setShown g.users a.user { shown with streams := left } }

/-- Takes a held track from its stream, if it is in one. -/
def detachHeld (g : Gallery) (h : Holding) : Outcome Gallery :=
  match h.attribution with
  | some a => g.detach a h.track.id
  | none => pure g

/-! ### Arrivals and departures -/

/-- A track is no longer rendered; its slot stays. Nothing happens if the track is not known or not
rendered. -/
def removeTrack (g : Gallery) (id : TrackId) : Outcome Gallery :=
  match g.index.get? id with
  | none => pure g
  | some slot =>
    match g.slots.get? slot with
    | none => do
      emit (.missed (.slot id))
      return g
    | some h =>
      match h.attribution with
      | none => pure g
      | some a => do
        let g ← detach { g with slots := g.slots.insert slot { h with attribution := none } } a id
        g.showCount
        return g

/-- Clears the slot in which a track sits, unless it is the given one. -/
def leaveOther (g : Gallery) (slot : Slot) (id : TrackId) : Outcome Gallery :=
  match g.index.get? id with
  | none => pure g
  | some before =>
    if before = slot then pure g
    else do
      let g ← g.removeTrack id
      return { g with slots := g.slots.erase before }

/-- Takes the given holding out of its slot, for a track with the given id. -/
def yieldSlot (g : Gallery) (h : Holding) (id : TrackId) : Outcome Gallery := do
  let g ← g.removeTrack h.track.id
  return if h.track.id = id then g else { g with index := g.index.erase h.track.id }

/-- Puts a track into a slot that holds no other, under the given attribution. -/
def place (g : Gallery) (slot : Slot) (t : Track) (a : Attribution) : Outcome Gallery := do
  let g ← g.leaveOther slot t.id
  let g ← g.attach a t
  let g := { g with
    index := g.index.insert t.id slot
    slots := g.slots.insert slot ⟨t, some a⟩ }
  g.showCount
  return g

/-- A track arrived in a slot, with a stream of the given id. Nothing happens if the slot holds it
already under the same attribution; any other track in the slot goes. -/
def addTrack (g : Gallery) (slot : Slot) (t : Track) (raw : StreamId) : Outcome Gallery :=
  let a := g.announced.attribution slot raw
  match g.slots.get? slot with
  | none => g.place slot t a
  | some h =>
    if h.track.id = t.id && h.attribution = some a then pure g
    else do
      let g ← g.yieldSlot h t.id
      g.place slot t a

/-! ### Participants and connections -/

/-- The slots with the tracks of a stream no longer attributed to anyone. -/
def clearAttributions (g : Gallery) (m : Stream) : Table Slot Holding :=
  m.tracks.foldl
    (fun slots t =>
      match g.index.get? t.id with
      | some slot => slots.modify slot fun h => { h with attribution := none }
      | none => slots)
    g.slots

/-- A stream is no longer shown, and its tracks are attributed to no one. -/
def dropStream (g : Gallery) (r : RemoteStream) : Outcome Gallery := do
  revoke r.url
  return { g with slots := g.clearAttributions r.stream }

/-- All streams of a participant go. The slots of their tracks stay, so that a later announcement
can bring the tracks back. -/
def unassociate (g : Gallery) (user : UserId) : Outcome Gallery :=
  match g.users.get? user with
  | none => pure g
  | some shown => do
    let g ← forEach dropStream shown.streams { g with users := g.users.erase user }
    g.showCount
    return g

/-- The slots of a connection, in order. -/
def slotsOf (g : Gallery) (peer : UserId) : List Slot :=
  g.slots.keys.filter fun slot => slot.peer = peer

/-- Clears a slot for good. -/
def dropSlot (g : Gallery) (slot : Slot) : Outcome Gallery :=
  match g.slots.get? slot with
  | none => pure g
  | some h => do
    let g ← detachHeld { g with slots := g.slots.erase slot } h
    return { g with index := g.index.erase h.track.id }

/-- All slots of a connection go. What its participant announced stays. -/
def removePeer (g : Gallery) (peer : UserId) : Outcome Gallery := do
  let g ← forEach dropSlot (g.slotsOf peer) g
  g.showCount
  return g

/-! ### The end -/

/-- The tracks of a captured stream are told to stop, and its URL is released. -/
def releaseLocal (m : LocalStream) : Outcome Unit := do
  stopAll m.stream
  revoke m.url

/-- The tracks of a shown stream are told to stop, and its URL is released. -/
def releaseRemote (r : RemoteStream) : Outcome Unit := do
  stopAll r.stream
  revoke r.url

/-- Every track is told to stop, also those that are not rendered, and nothing is left. -/
def reset (g : Gallery) : Outcome Gallery := do
  forEach (fun () m => releaseLocal m) g.locals.values ()
  forEach (fun () r => releaseRemote r) (g.users.values.flatMap (·.streams)) ()
  emitAll (g.slots.values.map fun h => .stopped h.track)
  let g := empty g.urls
  g.showCount
  return g

end VideoCall.Gallery

import VideoCall.Gallery.Tracks

/-!
# Captured streams

At most one stream of each type is captured at a time. While there is a recording, the streams
captured here are its legs, so the recording is told of each one that comes or goes: of one that
goes before its tracks are stopped.

## Main definitions

* `Gallery.addLocal`, `Gallery.removeLocal` : a captured stream comes or goes.
* `Gallery.setMirror` : the camera's picture changed.
-/

namespace VideoCall.Gallery

open Media Outcome

/-- Whether a captured stream is shown as in a mirror: a camera is, if it has a picture that does
not come from the rear. -/
def mirrors (type : StreamType) (m : Stream) : Bool :=
  type = .camera && m.videoTracks.any fun t => !isRearFacing t.label

/-- Tells the recording, if there is one, what happens to a captured stream. -/
def tell (recording : Bool) (e : LegEvent) : Outcome Unit :=
  when recording (emit (.leg e))

/-- The captured stream of a type goes, and is the answer. -/
def removeLocal (g : Gallery) (recording : Bool) (type : StreamType) :
    Outcome (Gallery × Option LocalStream) :=
  match g.locals.get? type with
  | none => pure (g, none)
  | some m => do
    tell recording (.removed m)
    releaseLocal m
    return ({ g with locals := g.locals.erase type }, some m)

section RemoveLocal

variable {g : Gallery} {type : StreamType} (recording : Bool)

theorem removeLocal_of_none (hnone : g.locals.get? type = none) :
    g.removeLocal recording type = pure (g, none) := by
  unfold removeLocal
  rw [hnone]

theorem value_removeLocal {m : LocalStream} (hm : g.locals.get? type = some m) :
    (g.removeLocal recording type).value = ({ g with locals := g.locals.erase type }, some m) := by
  unfold removeLocal
  rw [hm]
  rfl

@[simp]
theorem slots_removeLocal (g : Gallery) (type : StreamType) :
    (g.removeLocal recording type).value.1.slots = g.slots := by
  unfold removeLocal
  split <;> rfl

@[simp]
theorem users_removeLocal (g : Gallery) (type : StreamType) :
    (g.removeLocal recording type).value.1.users = g.users := by
  unfold removeLocal
  split <;> rfl

end RemoveLocal

/-- A captured stream takes the place of the one of its type, and is the answer. -/
def addLocal (g : Gallery) (recording : Bool) (type : StreamType) (stream : Stream) :
    Outcome (Gallery × LocalStream) := do
  let (g, _) ← g.removeLocal recording type
  emit (.url (g.urls.event stream.id))
  let m : LocalStream := ⟨type, stream, g.urls.mint? stream.id, mirrors type stream⟩
  tell recording (.added m)
  return ({ g with locals := g.locals.insert type m, urls := g.urls.next stream.id }, m)

/-- A track took the place of the camera's picture. Other types and tracks do not matter. -/
def setMirror (g : Gallery) (type : StreamType) (t : Track) : Gallery :=
  if t.kind = .video && type = .camera then
    { g with locals := g.locals.modify type fun m => { m with mirror := !isRearFacing t.label } }
  else g

@[simp]
theorem slots_setMirror (g : Gallery) (type : StreamType) (t : Track) :
    (g.setMirror type t).slots = g.slots := by
  unfold setMirror
  split <;> rfl

@[simp]
theorem users_setMirror (g : Gallery) (type : StreamType) (t : Track) :
    (g.setMirror type t).users = g.users := by
  unfold setMirror
  split <;> rfl

end VideoCall.Gallery

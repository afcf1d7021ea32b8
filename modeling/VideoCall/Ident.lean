/-!
# Identifiers

Participants, streams, tracks, media sections and rooms are named by opaque texts that someone else
hands out. Each kind of name is a type of its own, so that a name of one kind never stands for
another. Names are ordered by the code points of their texts.

## Main definitions

* `Ident` : a text that names something of a given kind.
* `UserId`, `StreamId`, `TrackId`, `Mid`, `RoomId` : the five kinds.
-/

namespace VideoCall

/-- What an identifier names. -/
inductive IdentKind
  /-- A participant of the call. -/
  | user
  /-- A group of tracks that are rendered together. -/
  | stream
  /-- A single audio or video track. -/
  | track
  /-- A media section of one peer connection. -/
  | mid
  /-- A room of the relay. -/
  | room
  deriving DecidableEq

/-- A text that names something of the given kind. -/
structure Ident (kind : IdentKind) where
  text : String
  deriving DecidableEq, Inhabited

/-- The name of a participant; in a mesh also that of the connection to the participant. -/
abbrev UserId := Ident .user

/-- The name of a media stream. -/
abbrev StreamId := Ident .stream

/-- The name of a media track. -/
abbrev TrackId := Ident .track

/-- The name of a media section, with a meaning on one peer connection only. -/
abbrev Mid := Ident .mid

/-- The name of a room. -/
abbrev RoomId := Ident .room

namespace Ident

variable {kind : IdentKind}

theorem text_inj {a b : Ident kind} : a.text = b.text ↔ a = b := by
  cases a
  cases b
  simp

instance : Ord (Ident kind) := ⟨fun a b => compare a.text b.text⟩

private theorem compare_eq_swap (a b : String) : compare a b = (compare b a).swap :=
  Std.OrientedCmp.eq_swap

private theorem compare_isLE_trans {a b c : String} (h : (compare a b).isLE)
    (h' : (compare b c).isLE) : (compare a c).isLE :=
  Std.TransCmp.isLE_trans h h'

instance : Std.TransOrd (Ident kind) where
  eq_swap {a b} := compare_eq_swap a.text b.text
  isLE_trans h h' := compare_isLE_trans h h'

instance : Std.LawfulEqOrd (Ident kind) where
  compare_self {a} := (Std.ReflCmp.compare_self : compare a.text a.text = .eq)
  eq_of_compare {a b} h := by
    have : a.text = b.text := Std.LawfulEqOrd.eq_of_compare h
    cases a; cases b; cases this; rfl

end Ident

end VideoCall

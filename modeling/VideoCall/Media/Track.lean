import VideoCall.Ident
import VideoCall.Json.Format
import VideoCall.Text.Quoted

/-!
# Media tracks

A track is a handle on one audio or video signal of the media stack. Two handles may carry the same
track id, and then they count as the same track; what is stopped is the handle. A stopped handle
stays stopped.

## Main definitions

* `Media.Track` : a handle with its id, kind and label.
* `Media.Stopped` : the handles stopped so far.
* `Media.isRearFacing` : whether a camera's label names a rear camera.
-/

namespace VideoCall.Media

/-- What a track carries. -/
inductive TrackKind
  | audio
  | video
  deriving DecidableEq

namespace TrackKind

/-- The name of a kind. -/
def name : TrackKind → String
  | audio => "audio"
  | video => "video"

/-- The form of a kind in messages. -/
def format : Json.Format TrackKind := .choice [("audio", audio), ("video", video)] name

/-- The name of a kind where data is described. -/
def describe : TrackKind → String
  | audio => "Audio"
  | video => "Video"

end TrackKind

/-- A handle on a track. -/
structure Track where
  /-- Tells the handles of one run apart. -/
  handle : Nat
  id : TrackId
  kind : TrackKind
  /-- The name of the device. -/
  label : String
  deriving DecidableEq

/-! ### Stopping -/

/-- The handles that were stopped, first the one stopped last. -/
structure Stopped where
  handles : List Nat
  deriving DecidableEq

namespace Stopped

/-- No handle is stopped. -/
def none : Stopped := ⟨[]⟩

/-- Whether the handle was stopped. -/
def contains (s : Stopped) (t : Track) : Bool := s.handles.contains t.handle

/-- The handles stopped after one more call to stop. -/
def stop (s : Stopped) (t : Track) : Stopped :=
  if s.contains t then s else ⟨t.handle :: s.handles⟩

/-- Whether a call to stop is the one that stops the handle. -/
def stops (s : Stopped) (t : Track) : Bool := !s.contains t

/-- What is stopped is the handle. -/
theorem contains_stop_iff {s : Stopped} {t t' : Track} :
    (s.stop t').contains t ↔ s.contains t ∨ t'.handle = t.handle := by
  unfold stop
  split
  · rename_i hold
    refine (or_iff_left_of_imp fun he => ?_).symm
    rwa [contains, ← he]
  · rw [contains, List.contains_cons, Bool.or_eq_true, beq_iff_eq, eq_comm, or_comm]
    rfl

theorem contains_foldl_stop_iff {s : Stopped} {ts : List Track} {t : Track} :
    (ts.foldl stop s).contains t ↔ s.contains t ∨ ∃ t' ∈ ts, t'.handle = t.handle := by
  induction ts generalizing s with
  | nil => simp
  | cons t' ts ih =>
    rw [List.foldl_cons, ih, contains_stop_iff, or_assoc]
    simp

end Stopped

namespace Track

/-- A description of a track and of whether it was stopped. -/
def describe (t : Track) (s : Stopped) : String :=
  "MediaTrack \x7b id: TrackId(" ++ Text.quoted t.id.text ++ "), kind: " ++ t.kind.describe
    ++ ", label: " ++ Text.quoted t.label ++ ", stopped: " ++ toString (s.contains t) ++ " \x7d"

end Track

/-! ### Camera labels -/

/-- A character in lower case, as far as the lower case is an ASCII letter: that is so for the
capitals `A` to `Z` and for the Kelvin sign alone. -/
def lowered (c : Char) : Char :=
  if 'A' ≤ c && c ≤ 'Z' then Char.ofNat (c.toNat + 0x20)
  else if c = '\u212a' then 'k' else c

/-- Whether `word` stands somewhere in the text. -/
def occursIn (word : List Char) : List Char → Bool
  | [] => word.isEmpty
  | c :: r => word.isPrefixOf (c :: r) || occursIn word r

/-- Whether the label names a rear camera: it contains `back` or `rear`, in capitals or not. -/
def isRearFacing (label : String) : Bool :=
  let cs := label.toList.map lowered
  occursIn ['b', 'a', 'c', 'k'] cs || occursIn ['r', 'e', 'a', 'r'] cs

end VideoCall.Media

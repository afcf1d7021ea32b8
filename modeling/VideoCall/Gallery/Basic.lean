import VideoCall.Media.Stream
import VideoCall.Media.Url
import VideoCall.Wire.Payload

/-!
# The gallery

The gallery shows whose tracks are rendered where. A received track sits in a slot, which is a media
section of one peer connection. It is attributed to a participant and a stream: to those that the
sender announced for the slot, or else to the connection's own participant and the id the stream
came with. The tracks that are attributed to one stream are rendered together, and a participant is
shown as long as a stream of theirs holds a track. Beside them stand the streams captured here, one
of each type.

## Main definitions

* `Slot`, `Attribution`, `Holding` : where a track came in, where it is rendered, and the record of
  both.
* `RemoteStream`, `LocalStream` : streams with the URLs they are shown from.
* `Shown` : the streams of a participant.
* `Gallery` : all of it, with the announcements and the index of tracks.
* `Gallery.Snapshot` : what a renderer is given.
-/

namespace VideoCall

open Media Wire

/-! ### Slots -/

/-- A media section of one peer connection. -/
structure Slot where
  peer : UserId
  mid : Mid
  deriving DecidableEq

namespace Slot

/-- Slots are ordered by the peer and then by the media section. -/
instance : Ord Slot := ⟨compareLex (compareOn Slot.peer) (compareOn Slot.mid)⟩

theorem compare_def (a b : Slot) :
    compare a b = (compare a.peer b.peer).then (compare a.mid b.mid) := rfl

instance : Std.TransOrd Slot :=
  inferInstanceAs (Std.TransCmp (compareLex (compareOn Slot.peer) (compareOn Slot.mid)))

instance : Std.LawfulEqOrd Slot where
  eq_of_compare {a b} h := by
    rw [compare_def, Ordering.then_eq_eq] at h
    have h₁ : a.peer = b.peer := Std.LawfulEqOrd.eq_of_compare h.1
    have h₂ : a.mid = b.mid := Std.LawfulEqOrd.eq_of_compare h.2
    cases a; cases b; cases h₁; cases h₂; rfl

/-- The words for a slot. -/
def describe (s : Slot) : String := s.peer.text ++ "::" ++ s.mid.text

end Slot

/-! ### Received tracks -/

/-- Where a track is rendered: whose it is, and in which of their streams. -/
structure Attribution where
  user : UserId
  stream : StreamId
  deriving DecidableEq

/-- What a sender announced for its slots. -/
abbrev Announcements := Table Slot Announcement

namespace Announcements

/-- The attribution of a track that comes in at a slot: the one the sender announced, or else the
connection's own participant with the id that the stream came with. -/
def attribution (a : Announcements) (slot : Slot) (raw : StreamId) : Attribution :=
  match a.get? slot with
  | some m => ⟨m.user, m.stream⟩
  | none => ⟨slot.peer, raw⟩

/-- One sender's announcements by slot: of several for one slot the last one counts. -/
def ofBatch (sender : UserId) (batch : List Announcement) : Announcements :=
  Table.ofList (batch.map fun m => (⟨sender, m.mid⟩, m))

/-- The announcements with those of one sender replaced. -/
def replace (a : Announcements) (sender : UserId) (news : Announcements) : Announcements :=
  (a.filter fun slot _ => slot.peer ≠ sender).insertAll news.entries

end Announcements

/-- A received track and where it is rendered; nowhere once it is muted or withdrawn. -/
structure Holding where
  track : Track
  attribution : Option Attribution
  deriving DecidableEq

/-- The tracks that are rendered together for a participant, and the URL they are shown from. -/
structure RemoteStream where
  stream : Stream
  /-- The id under which the participant's tracks are attributed to the stream. -/
  id : StreamId
  /-- None if the renderer refused the stream. -/
  url : Option Url
  deriving DecidableEq

/-- A participant who is shown, with their streams, first the one that came first. -/
structure Shown where
  user : UserId
  streams : List RemoteStream
  deriving DecidableEq

/-! ### Captured streams -/

/-- What a stream captures. -/
inductive StreamType
  | camera
  | desktop
  deriving DecidableEq

namespace StreamType

/-- The name of a type. -/
def name : StreamType → String
  | camera => "camera"
  | desktop => "desktop"

/-- The place of a type in the order of types. -/
def rank : StreamType → Nat
  | camera => 0
  | desktop => 1

/-- The camera comes first. -/
instance : Ord StreamType := ⟨compareOn rank⟩

instance : Std.TransOrd StreamType := inferInstanceAs (Std.TransCmp (compareOn rank))

instance : Std.LawfulEqOrd StreamType where
  eq_of_compare {a b} h := by
    have h' : a.rank = b.rank := Std.LawfulEqOrd.eq_of_compare h
    match a, b, h' with
    | camera, camera, _ => rfl
    | desktop, desktop, _ => rfl

end StreamType

/-- A stream captured here. -/
structure LocalStream where
  type : StreamType
  stream : Stream
  /-- None if the renderer refused the stream. -/
  url : Option Url
  /-- Whether the picture is shown as in a mirror. -/
  mirror : Bool
  deriving DecidableEq

/-- What happens to the recording of a stream captured here. -/
inductive LegEvent
  | added (m : LocalStream)
  | removed (m : LocalStream)
  deriving DecidableEq

/-! ### The gallery -/

/-- Whose tracks are rendered where. -/
structure Gallery where
  /-- The streams captured here. -/
  locals : Table StreamType LocalStream
  /-- The participants who are shown. -/
  users : Table UserId Shown
  /-- What the senders announced for their slots. -/
  announced : Announcements
  /-- Where each received track sits. -/
  index : Table TrackId Slot
  /-- What sits in each slot. -/
  slots : Table Slot Holding
  urls : UrlSource

namespace Gallery

/-- Nothing is shown yet. -/
def empty (urls : UrlSource) : Gallery := ⟨∅, ∅, ∅, ∅, ∅, urls⟩

/-- What a renderer is given. -/
structure Snapshot where
  locals : List LocalStream
  users : List (UserId × List RemoteStream)
  deriving DecidableEq

namespace Snapshot

/-- The streams of a participant who is shown. -/
def streams? (s : Snapshot) (user : UserId) : Option (List RemoteStream) := s.users.lookup user

/-- The stream of a participant, by its id. -/
def stream? (s : Snapshot) (user : UserId) (stream : StreamId) : Option RemoteStream :=
  (s.streams? user).bind fun l => l.find? fun r => r.id = stream

/-- The ids of a participant's tracks, stream by stream. -/
def trackIds? (s : Snapshot) (user : UserId) : Option (List TrackId) :=
  (s.streams? user).map fun l => l.flatMap fun r => r.stream.trackIds

/-- The captured stream of a type. -/
def captured? (s : Snapshot) (type : StreamType) : Option LocalStream :=
  s.locals.find? fun m => m.type = type

end Snapshot

/-- What a renderer is given now. -/
def snapshot (g : Gallery) : Snapshot :=
  ⟨g.locals.values, g.users.values.map fun s => (s.user, s.streams)⟩

/-- How many streams of participants are shown. -/
def streamCount (g : Gallery) : Nat :=
  (g.users.values.map fun s => s.streams.length).foldl (· + ·) 0

/-- A description of how much the gallery holds. -/
def describe (g : Gallery) : String :=
  "AssociationStore \x7b local_streams: " ++ toString g.locals.size ++ ", users: "
    ++ toString g.users.size ++ ", metadata: " ++ toString g.announced.size ++ ", tracks: "
    ++ toString g.slots.size ++ ", .. \x7d"

end Gallery

end VideoCall

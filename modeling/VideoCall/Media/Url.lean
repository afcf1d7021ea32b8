import VideoCall.Ident

/-!
# Object URLs

A renderer shows a stream through an object URL, which is minted for the stream and released when
the stream is no longer shown. The renderer may refuse a stream, and then the stream has no URL.
Releasing a URL that is not live changes nothing.

## Main definitions

* `Media.Url` : an object URL.
* `Media.UrlEvent` : what happens to URLs.
* `Media.UrlSource` : mints URLs, or refuses to.
* `Media.UrlLedger` : the live URLs and the number of those released.
-/

namespace VideoCall.Media

/-- An object URL. -/
inductive Url
  /-- Minted for a stream, with a serial number that no other URL has. -/
  | minted (stream : StreamId) (serial : Nat)
  /-- A text that was never minted. -/
  | foreign (text : String)
  deriving DecidableEq

namespace Url

/-- The text of a URL. The serial number stands for 32 random digits. -/
def text : Url → String
  | minted stream serial => "blob:" ++ stream.text ++ "/32#" ++ toString serial
  | foreign text => text

end Url

/-- What happens to a URL. -/
inductive UrlEvent
  | minted (url : Url)
  /-- The renderer cannot show the stream. -/
  | refused (stream : StreamId)
  | revoked (url : Url)
  deriving DecidableEq

/-- A renderer that mints URLs, or refuses to. -/
structure UrlSource where
  /-- How many URLs were asked for. -/
  asked : Nat
  /-- How many URLs were minted. -/
  made : Nat
  /-- Whether a request, by its number and stream, is refused. -/
  refuses : Nat → StreamId → Bool
  /-- The URL that is minted for a stream, by how many URLs were minted before. -/
  name : Nat → StreamId → Url

namespace UrlSource

/-- A source that has minted nothing yet, and gives its URLs serial numbers in order. -/
def fresh (refuses : Nat → StreamId → Bool) : UrlSource :=
  ⟨0, 0, refuses, fun serial stream => .minted stream serial⟩

/-- A URL for the stream, if the renderer can show it. -/
def mint? (s : UrlSource) (stream : StreamId) : Option Url :=
  if s.refuses s.asked stream then none else some (s.name s.made stream)

/-- The source after a request for the stream. -/
def next (s : UrlSource) (stream : StreamId) : UrlSource :=
  { s with asked := s.asked + 1, made := if s.refuses s.asked stream then s.made else s.made + 1 }

/-- What a request for the stream leads to. -/
def event (s : UrlSource) (stream : StreamId) : UrlEvent :=
  match s.mint? stream with
  | some url => .minted url
  | none => .refused stream

end UrlSource

/-- The URLs that were minted and not released. -/
structure UrlLedger where
  /-- The live URLs, first the one minted first. -/
  live : List Url
  /-- How many URLs were released. -/
  released : Nat
  deriving DecidableEq

namespace UrlLedger

/-- No URL was minted yet. -/
def empty : UrlLedger := ⟨[], 0⟩

/-- The ledger after an event. Only a live URL is released. -/
def note (l : UrlLedger) : UrlEvent → UrlLedger
  | .minted url => { l with live := l.live ++ [url] }
  | .refused _ => l
  | .revoked url =>
    if l.live.contains url then ⟨l.live.erase url, l.released + 1⟩ else l

end UrlLedger

end VideoCall.Media

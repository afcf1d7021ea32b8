import VideoCall.Json.Token

/-!
# Reading a text into a document

The reader takes one token after the other and keeps the brackets that are open. Where a token is
out of place, or the tokens end too early, it closes the open brackets around what it has, so that
everything to the left of the fault is still there to be looked at.

## Main definitions

* `Json.Document` : the document of a text, and whether anything follows it.
* `Json.Document.read` : reads a text.
-/

namespace VideoCall.Json

/-- What a text holds. -/
structure Document where
  root : Node
  /-- Something other than blanks follows the document. -/
  trailing : Bool

namespace Document

/-- A bracket that is still open. What it holds stands in reverse order. -/
inductive Frame
  | items (done : List Node)
  | members (done : List (Key × Node))
  /-- The members so far, and the name of the member whose value comes next. -/
  | member (done : List (Key × Node)) (key : Key)

/-- What may come next. -/
inductive Place
  /-- A value. -/
  | value
  /-- A value, or the end of an array that has no item yet. -/
  | firstValue
  /-- A comma or the closing bracket. -/
  | separator
  /-- The name of a member. -/
  | name
  /-- The name of a member, or the end of an object that has no member yet. -/
  | firstName
  /-- The colon behind a name. -/
  | colon
  deriving DecidableEq

/-- What a token does to the open brackets. -/
inductive Move
  /-- Reading goes on. -/
  | go (place : Place) (open_ : List Frame)
  /-- The document is complete. -/
  | finished (n : Node)
  /-- The token is out of place. -/
  | broken (n : Node)

/-- The document around a value behind which nothing more can be read. -/
def abandon (n : Node) : List Frame → Node
  | [] => n
  | .items done :: r => abandon (.array (n :: done).reverse false) r
  | .members done :: r => abandon (.object done.reverse false) r
  | .member done key :: r => abandon (.object ((key, n) :: done).reverse false) r

/-- The document of the open brackets alone. -/
def leave : List Frame → Node
  | [] => .cut
  | .items done :: r => abandon (.array done.reverse false) r
  | .members done :: r => abandon (.object done.reverse false) r
  | .member done _ :: r => abandon (.object done.reverse false) r

/-- A value inside the open brackets. A member has no value before it has a name. -/
def deliver (n : Node) : List Frame → Move
  | [] => .finished n
  | .items done :: r => .go .separator (.items (n :: done) :: r)
  | .members done :: r => .broken (leave (.members done :: r))
  | .member done key :: r => .go .separator (.members ((key, n) :: done) :: r)

/-- The document where nothing fits at the given place. -/
def breakOff : Place → List Frame → Node
  | .value, fs => abandon .cut fs
  | .colon, fs => abandon .cut fs
  | .firstValue, fs => leave fs
  | .separator, fs => leave fs
  | .name, fs => leave fs
  | .firstName, fs => leave fs

/-- The value that a token stands for by itself. -/
def leaf? : Token → Option Node
  | .null => some .null
  | .bool b => some (.bool b)
  | .number n => some (.number n)
  | .string s => some (.string s)
  | _ => none

/-- The key that a quoted text makes. -/
def key : Option String → Key
  | some s => .name s
  | none => .unreadable

/-- A token where a value may stand. -/
def atValue (fs : List Frame) (t : Token) : Move :=
  match t with
  | .openArray => .go .firstValue (.items [] :: fs)
  | .openObject => .go .firstName (.members [] :: fs)
  | t =>
    match leaf? t with
    | some n => deliver n fs
    | none => .broken (breakOff .value fs)

/-- A token at a place inside the open brackets. -/
def step (p : Place) (fs : List Frame) (t : Token) : Move :=
  match p, fs, t with
  | .firstValue, .items _ :: r, .closeArray => deliver (.array [] true) r
  | .firstName, .members _ :: r, .closeObject => deliver (.object [] true) r
  | .separator, .items done :: r, .comma => .go .value (.items done :: r)
  | .separator, .items done :: r, .closeArray => deliver (.array done.reverse true) r
  | .separator, .members done :: r, .comma => .go .name (.members done :: r)
  | .separator, .members done :: r, .closeObject => deliver (.object done.reverse true) r
  | .firstName, .members done :: r, .string s => .go .colon (.member done (key s) :: r)
  | .name, .members done :: r, .string s => .go .colon (.member done (key s) :: r)
  | .colon, .member done k :: r, .colon => .go .value (.member done k :: r)
  | .value, fs, t => atValue fs t
  | .firstValue, fs, t => atValue fs t
  | p, fs, _ => .broken (breakOff p fs)

/-- Reads the rest of the tokens. -/
def run (p : Place) (fs : List Frame) : List Token → Document
  | [] => ⟨breakOff p fs, false⟩
  | t :: ts =>
    match step p fs t with
    | .go p fs => run p fs ts
    | .finished n => ⟨n, !ts.isEmpty⟩
    | .broken n => ⟨n, true⟩

/-- The document of a list of tokens. -/
def ofTokens (ts : List Token) : Document := run .value [] ts

/-- Reads a text. -/
def read (s : String) : Document := ofTokens (Token.scan s.toList)

end Document

end VideoCall.Json

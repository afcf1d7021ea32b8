import VideoCall.Json.Format

/-!
# Tagged data

Data of several kinds is written with two members: the `type` names the kind, and the `payload`
holds what belongs to it. The members may come in either order. A payload that comes first is held
back until the type is known. An array of the two, type first, says the same; in it the type is a
name and nothing else.

## Main definitions

* `Json.Tagged` : the kinds of data and the formats of their payloads.
* `Json.Tagged.read`, `Json.Tagged.members` : how tagged data is read and written.
-/

namespace VideoCall.Json

/-- Data of several kinds. -/
structure Tagged (κ ε : Type) where
  /-- The words for the data in messages. -/
  title : String
  /-- The kinds with their names, in the order in which messages name them. -/
  kinds : List (String × κ)
  /-- The name of a kind. -/
  nameOf : κ → String
  /-- How the payload of a kind is read. -/
  payload : κ → Origin → Node → Except Fault ε
  /-- The kind of some data, and its payload as a document. -/
  write : ε → κ × Node

namespace Tagged

variable {κ ε : Type}

/-- The form of a kind that stands in a member. -/
def kindFormat (t : Tagged κ ε) : Format κ := .choice t.kinds t.nameOf

/-- The form of a kind that stands in an array. -/
def bareKindFormat (t : Tagged κ ε) : Format κ := .bareChoice t.kinds t.nameOf

/-- One of the two members that count. -/
inductive Part
  | type
  | payload
  deriving DecidableEq

namespace Part

/-- The member with the given name. -/
def ofName? (s : String) : Option Part :=
  if s = "type" then some type else if s = "payload" then some payload else none

/-- The name of the member. -/
def name : Part → String
  | type => "type"
  | payload => "payload"

end Part

/-- The first of the two members that count, with its value and the members behind it. All members
before it only have to be whole. -/
def next (closed : Bool) : List (Key × Node) →
    Except Fault (Option (Part × Node × List (Key × Node)))
  | [] => if closed then .ok none else .error .garbled
  | (.name s, n) :: r =>
    match Part.ofName? s with
    | some p => .ok (some (p, n, r))
    | none => if n.whole then next closed r else .error .garbled
  | (_, _) :: _ => .error .garbled

/-- Checks that neither member comes again. -/
def checkRest (closed : Bool) (members : List (Key × Node)) : Except Fault Unit := do
  match ← next closed members with
  | some (p, _, _) => .error (.shape (.duplicateField p.name))
  | none => .ok ()

/-- Holds a payload back that has one bracket open around it. -/
def hold (o : Origin) (n : Node) : Except Fault Unit :=
  match o with
  | .text => if n.readable (maxDepth - 1) then .ok () else .error .garbled
  | _ => .ok ()

/-- Reads the members of an object. -/
def readMembers (t : Tagged κ ε) (o : Origin) (members : List (Key × Node)) (closed : Bool) :
    Except Fault ε := do
  match ← next closed members with
  | none => .error (.shape (.missingField "type"))
  | some (.type, n, r) =>
    let k ← t.kindFormat.read o n
    match ← next closed r with
    | none => .error (.shape (.missingField "payload"))
    | some (.type, _, _) => .error (.shape (.duplicateField "type"))
    | some (.payload, p, r) =>
      let e ← t.payload k o p
      checkRest closed r
      return e
  | some (.payload, p, r) =>
    hold o p
    match ← next closed r with
    | none => .error (.shape (.missingField "type"))
    | some (.payload, _, _) => .error (.shape (.duplicateField "payload"))
    | some (.type, n, r) =>
      let k ← t.kindFormat.read o n
      let e ← t.payload k .held p
      checkRest closed r
      return e

/-- Reads the items of an array. -/
def readItems (t : Tagged κ ε) (o : Origin) (items : List Node) (closed : Bool) :
    Except Fault ε :=
  match items with
  | [] => .error (if closed then .shape (.wrongLength 0 t.title) else .garbled)
  | n :: r => do
    let k ← t.bareKindFormat.read o n
    match r with
    | [] => .error (if closed then .shape (.wrongLength 1 t.title) else .garbled)
    | p :: r =>
      let e ← t.payload k o p
      Format.checkEnd o 2 r closed
      return e

/-- Reads tagged data. -/
def read (t : Tagged κ ε) (o : Origin) : Node → Except Fault ε
  | .array items closed => t.readItems o items closed
  | .object members closed => t.readMembers o members closed
  | n => .error (.mismatch n t.title)

/-- The two members of some data. -/
def members (t : Tagged κ ε) (e : ε) : List (Key × Node) :=
  let (k, p) := t.write e
  [(.name "type", t.kindFormat.write k), (.name "payload", p)]

/-- The document of some data. -/
def node (t : Tagged κ ε) (e : ε) : Node := .object (t.members e) true

end Tagged

end VideoCall.Json

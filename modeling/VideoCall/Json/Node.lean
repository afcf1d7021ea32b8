import VideoCall.Json.Value

/-!
# Documents as far as they can be read

A text is read from left to right, and the first thing wrong in it decides, whether that is a
character out of place or a part of the wrong shape. A node is what a text holds up to the point
where it breaks off. It keeps what a free-form value forgets: the order of members, repeated names,
brackets that are never closed, and numbers and texts that are well formed but stand for nothing.

## Main definitions

* `Json.Node` : a document or a part of one.
* `Json.Node.whole` : nothing is out of place, whatever the numbers and texts stand for.
* `Json.Node.readable` : all of it stands for something, and it is not too deep.
* `Json.Node.value` : the free-form value of a readable node.
* `Json.Node.ofValue` : the node of a free-form value.
-/

namespace VideoCall.Json

/-- What stands where the name of a member belongs. -/
inductive Key
  /-- A name. -/
  | name (s : String)
  /-- A text that stands for nothing, because half of a surrogate pair is missing in it. -/
  | unreadable
  deriving DecidableEq

/-- A document or a part of one, as far as it can be read. -/
inductive Node
  | null
  | bool (b : Bool)
  /-- A number; nothing if it is beyond the largest double. -/
  | number (n : Option Number)
  /-- A text; nothing if half of a surrogate pair is missing in it. -/
  | string (s : Option String)
  /-- Items, and whether the closing bracket follows them. -/
  | array (items : List Node) (closed : Bool)
  /-- Members, and whether the closing bracket follows them. -/
  | object (members : List (Key × Node)) (closed : Bool)
  /-- The place where something is missing or out of place. -/
  | cut

namespace Node

mutual

/-- Nothing is missing or out of place. -/
def whole : Node → Bool
  | null => true
  | bool _ => true
  | number _ => true
  | string _ => true
  | array items closed => wholeItems items && closed
  | object members closed => wholeMembers members && closed
  | cut => false

/-- Every item is whole. -/
def wholeItems : List Node → Bool
  | [] => true
  | n :: r => n.whole && wholeItems r

/-- Every member has a whole value. -/
def wholeMembers : List (Key × Node) → Bool
  | [] => true
  | (_, n) :: r => n.whole && wholeMembers r

end

mutual

/-- Everything stands for something, and no more than `depth` brackets are open at once. -/
def readable (depth : Nat) : Node → Bool
  | null => true
  | bool _ => true
  | number n => n.isSome
  | string s => s.isSome
  | array items closed =>
    match depth with
    | 0 => false
    | d + 1 => readableItems d items && closed
  | object members closed =>
    match depth with
    | 0 => false
    | d + 1 => readableMembers d members && closed
  | cut => false

/-- Every item is readable. -/
def readableItems (depth : Nat) : List Node → Bool
  | [] => true
  | n :: r => n.readable depth && readableItems depth r

/-- Every member has a name and a readable value. -/
def readableMembers (depth : Nat) : List (Key × Node) → Bool
  | [] => true
  | (.name _, n) :: r => n.readable depth && readableMembers depth r
  | (.unreadable, _) :: _ => false

end

mutual

/-- The free-form value; what stands for nothing becomes `null`. -/
def value : Node → Value
  | null => .null
  | bool b => .bool b
  | number (some n) => .number n
  | number none => .null
  | string (some s) => .string s
  | string none => .null
  | array items _ => .array (itemValues items)
  | object members _ => .ofMembers (memberValues members)
  | cut => .null

/-- The free-form values of the items. -/
def itemValues : List Node → List Value
  | [] => []
  | n :: r => n.value :: itemValues r

/-- The named members with their free-form values. -/
def memberValues : List (Key × Node) → List (String × Value)
  | [] => []
  | (.name s, n) :: r => (s, n.value) :: memberValues r
  | (.unreadable, _) :: r => memberValues r

end

mutual

/-- The document of a free-form value. -/
def ofValue : Value → Node
  | .null => null
  | .bool b => bool b
  | .number n => number (some n)
  | .string s => string (some s)
  | .array items => array (ofItems items) true
  | .object members => object (ofMembers members) true

/-- The documents of the items. -/
def ofItems : List Value → List Node
  | [] => []
  | v :: r => ofValue v :: ofItems r

/-- The members with their documents. -/
def ofMembers : List (String × Value) → List (Key × Node)
  | [] => []
  | (s, v) :: r => (.name s, ofValue v) :: ofMembers r

end

end Node

end VideoCall.Json

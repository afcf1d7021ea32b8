import VideoCall.Json.Number

/-!
# Free-form JSON values

A free-form value is data whose shape nobody here looks into, such as the negotiation envelopes that
peers exchange. The members of an object stand in increasing order of their names, one per name.

## Main definitions

* `Json.Value` : a value.
* `Json.Value.Canonical` : all objects in order, all whole numbers in range.
* `Json.Value.ofMembers` : an object from members in any order, where the last one of a name counts.
* `Json.Value.member?` : a member of an object.
-/

namespace VideoCall.Json

/-- A value of any shape. -/
inductive Value
  | null
  | bool (b : Bool)
  | number (n : Number)
  | string (s : String)
  | array (items : List Value)
  | object (members : List (String × Value))

namespace Value

/-- Objects in order with one member per name, and whole numbers in range, all the way down. -/
inductive Canonical : Value → Prop
  | null : Canonical null
  | bool (b : Bool) : Canonical (bool b)
  | number (n : Number) (h : n.Fits) : Canonical (number n)
  | string (s : String) : Canonical (string s)
  | array (items : List Value) (h : ∀ v ∈ items, Canonical v) : Canonical (array items)
  | object (members : List (String × Value))
      (order : members.Pairwise fun a b => compare a.1 b.1 = .lt)
      (h : ∀ m ∈ members, Canonical m.2) : Canonical (object members)

/-- Members with one more, in its place by name and instead of the old one of that name. -/
def insertMember (name : String) (v : Value) : List (String × Value) → List (String × Value)
  | [] => [(name, v)]
  | (a, w) :: r =>
    match compare name a with
    | .lt => (name, v) :: (a, w) :: r
    | .eq => (name, v) :: r
    | .gt => (a, w) :: insertMember name v r

/-- The object of a list of members; of several members with one name the last one counts. -/
def ofMembers (members : List (String × Value)) : Value :=
  object (members.foldl (fun done m => insertMember m.1 m.2 done) [])

/-- The member of an object with the given name. -/
def member? (v : Value) (name : String) : Option Value :=
  match v with
  | object members => members.lookup name
  | _ => none

/-- The text, if the value is one. -/
def text? : Value → Option String
  | string s => some s
  | _ => none

end Value

end VideoCall.Json

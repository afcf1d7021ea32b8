import VideoCall.Json.Fault
import VideoCall.Json.Writer

/-!
# Formats

A format says how data of one type stands in a document: how it is read and how it is written.
Formats of texts, flags, lists, tables, records and choices are put together from formats of their
parts.

Reading goes from left to right and stops at the first fault. A document comes from one of three
origins, which differ in few ways. While a *text* is being read, what follows a complete record in
its brackets is garbled. In a *value* that is already there, and in a part that was *held* back
until its type was known, it is a sequence of a wrong length.

## Main definitions

* `Json.Origin` : where a document comes from.
* `Json.Format` : how data is read and written.
* `Json.Format.text`, `flag`, `list`, `optional`, `free`, `choice`, `bareChoice` : formats.
* `Json.Fields`, `Json.Format.record` : records with named fields.
-/

namespace VideoCall.Json

/-- Where a document comes from. -/
inductive Origin
  /-- A text, which is read while it is taken apart. -/
  | text
  /-- A free-form value. -/
  | value
  /-- A part that was held back until its type was known. -/
  | held
  deriving DecidableEq

/-- How data of a type is read and written. -/
structure Format (α : Type) where
  read : Origin → Node → Except Fault α
  write : α → Node

/-- How many brackets a text may open inside one another. -/
def maxDepth : Nat := 127

namespace Format

variable {α β : Type}

/-- The same data under another type. -/
def map (f : Format α) (into : α → β) (back : β → α) : Format β where
  read o n := (f.read o n).map into
  write b := f.write (back b)

/-! ### Plain parts -/

/-- A text. -/
def text : Format String where
  read _
    | .string (some s) => .ok s
    | n => .error (.mismatch n "a string")
  write s := .string (some s)

/-- A flag. -/
def flag : Format Bool where
  read _
    | .bool b => .ok b
    | n => .error (.mismatch n "a boolean")
  write := .bool

/-- Data that may be missing, with `null` in its place. -/
def optional (f : Format α) : Format (Option α) where
  read o
    | .null => .ok none
    | n => (f.read o n).map some
  write
    | none => .null
    | some a => f.write a

/-- A free-form value inside a text that has `outside` brackets open around it. -/
def free (outside : Nat) : Format Value where
  read o n :=
    match o with
    | .text => if n.readable (maxDepth - outside) then .ok n.value else .error .garbled
    | .value => .ok n.value
    | .held => .ok n.value
  write := .ofValue

/-- A list. -/
def list (f : Format α) : Format (List α) where
  read o
    | .array items closed => do
      let as ← items.mapM (f.read o)
      if closed then .ok as else .error .garbled
    | n => .error (.mismatch n "a sequence")
  write as := .array (as.map f.write) true

/-- The names and values of an object, in the order they have in it. -/
def pairs (f : Format α) : Format (List (String × α)) where
  read o
    | .object members closed => do
      let as ← members.mapM fun m =>
        match m with
        | (.name s, n) => do return (s, ← f.read o n)
        | (_, _) => .error .garbled
      if closed then .ok as else .error .garbled
    | n => .error (.mismatch n "a map")
  write as := .object (as.map fun a => (.name a.1, f.write a.2)) true

/-! ### Choices -/

/-- Nothing, where a choice has room for more. -/
def readUnit (o : Origin) (n : Node) : Except Fault Unit :=
  match o, n with
  | _, .null => .ok ()
  | .held, .object [] true => .ok ()
  | _, n => .error (.mismatch n "unit")

/-- The choice of a name. -/
def pick (options : List (String × α)) (name : String) : Except Fault α :=
  match options.lookup name with
  | some a => .ok a
  | none => .error (.shape (.unknownVariant name (options.map (·.1))))

/-- A choice written as the only member of an object, whose value is `null`. -/
def pickMember (options : List (String × α)) (o : Origin) (members : List (Key × Node))
    (closed : Bool) : Except Fault α :=
  match o, members with
  | .text, (.name s, n) :: r => do
    let a ← pick options s
    readUnit o n
    if r.isEmpty && closed then .ok a else .error .garbled
  | .text, _ => .error .garbled
  | _, [(.name s, n)] => do
    let a ← pick options s
    readUnit o n
    .ok a
  | _, _ => .error (.shape (.wrongValue .map "map with a single key"))

/-- One of several names, each with what it stands for, and nothing but the name. -/
def bareChoice (options : List (String × α)) (name : α → String) : Format α where
  read _
    | .string (some s) => pick options s
    | n => .error (.mismatch n "variant identifier")
  write a := .string (some (name a))

/-- One of several names, each with what it stands for. The name may also be the only member of an
object. -/
def choice (options : List (String × α)) (name : α → String) : Format α where
  read o
    | .string (some s) => pick options s
    | .object members closed => pickMember options o members closed
    | n =>
      match o with
      | .text => .error .garbled
      | _ => .error (.mismatch n "string or map")
  write a := .string (some (name a))

end Format

/-! ### Records -/

/-- The fields of a record, in order, with the type of their values together. -/
inductive Fields : Type → Type 1
  | nil : Fields Unit
  /-- A field with its name, its format, the value that stands in for it when it is missing, and
  whether a value is written at all. -/
  | cons {α β : Type} (name : String) (format : Format α) (fallback : Option α)
      (written : α → Bool) (rest : Fields β) : Fields (α × β)

namespace Fields

/-- A field that must be there. -/
def field {α β : Type} (name : String) (format : Format α) (rest : Fields β) : Fields (α × β) :=
  cons name format none (fun _ => true) rest

/-- A field with a value that stands in for it when it is missing. -/
def fieldOr {α β : Type} (name : String) (format : Format α) (fallback : α) (rest : Fields β) :
    Fields (α × β) :=
  cons name format (some fallback) (fun _ => true) rest

/-- A field that is left out when it has no value. -/
def fieldOpt {α β : Type} (name : String) (format : Format α) (rest : Fields β) :
    Fields (Option α × β) :=
  cons name format.optional (some none) Option.isSome rest

/-- The number of fields. -/
def length : {τ : Type} → Fields τ → Nat
  | _, nil => 0
  | _, cons _ _ _ _ rest => rest.length + 1

/-- The values of the fields read so far. -/
def Draft : {τ : Type} → Fields τ → Type
  | _, nil => Unit
  | _, @cons α _ _ _ _ _ rest => Option α × rest.Draft

/-- No field is read yet. -/
def blank : {τ : Type} → (fs : Fields τ) → fs.Draft
  | _, nil => ()
  | _, cons _ _ _ _ rest => (none, rest.blank)

/-- Reads the field of the given name. There is no result where the record has no such field. -/
def set : {τ : Type} → (fs : Fields τ) → Origin → String → Node → fs.Draft →
    Option (Except Fault fs.Draft)
  | _, nil => fun _ _ _ _ => none
  | _, @cons α _ name format _ _ rest => fun o key n draft =>
    let (value, more) : Option α × rest.Draft := draft
    if key = name then
      some <|
        match value with
        | some _ => .error (.shape (.duplicateField name))
        | none => (format.read o n).map fun a => (some a, more)
    else (rest.set o key n more).map fun r => r.map fun more => (value, more)

/-- The values of all fields; the first field that is missing and has nothing to stand in for it is
the fault. -/
def finish : {τ : Type} → (fs : Fields τ) → fs.Draft → Except Fault τ
  | _, nil => fun _ => .ok ()
  | _, @cons α _ name _ fallback _ rest => fun draft =>
    let (value, more) : Option α × rest.Draft := draft
    match value.or fallback with
    | some a => (rest.finish more).map fun as => (a, as)
    | none => .error (.shape (.missingField name))

/-- Reads members in the order they come. Members that are no fields only have to be whole. -/
def readMembers {τ : Type} (fs : Fields τ) (o : Origin) :
    List (Key × Node) → fs.Draft → Except Fault fs.Draft
  | [], draft => .ok draft
  | (.name key, n) :: r, draft =>
    match fs.set o key n draft with
    | some (.ok draft) => readMembers fs o r draft
    | some (.error e) => .error e
    | none => if n.whole then readMembers fs o r draft else .error .garbled
  | (_, _) :: _, _ => .error .garbled

/-- Reads items as the fields in order, with those that are left over. Missing items have the
fields' values that stand in for them, if the array is complete. -/
def readItems : {τ : Type} → (fs : Fields τ) → Origin → String → Nat → List Node → Bool →
    Except Fault (τ × List Node)
  | _, nil, _, _, _, items, _ => .ok ((), items)
  | _, cons _ format _ _ rest, o, expected, index, n :: items, closed => do
    let a ← format.read o n
    let (as, left) ← rest.readItems o expected (index + 1) items closed
    return ((a, as), left)
  | _, cons _ _ fallback _ rest, o, expected, index, [], closed => do
    if !closed then .error .garbled
    else
      match fallback with
      | some a =>
        let (as, left) ← rest.readItems o expected (index + 1) [] closed
        return ((a, as), left)
      | none => .error (.shape (.wrongLength index expected))

/-- The members of a record, without those that are left out. -/
def write : {τ : Type} → Fields τ → τ → List (Key × Node)
  | _, nil, _ => []
  | _, cons name format _ written rest, (a, as) =>
    if written a then (.name name, format.write a) :: rest.write as else rest.write as

end Fields

namespace Format

/-- The words for a number of elements. -/
def elements (n : Nat) : String :=
  if n = 1 then "1 element" else toString n ++ " elements"

/-- Checks that an array ends where its reader has stopped. -/
def checkEnd (o : Origin) (taken : Nat) (left : List Node) (closed : Bool) : Except Fault Unit :=
  if left.isEmpty && closed then .ok ()
  else
    match o with
    | .text => .error .garbled
    | .value => .error (.shape (.wrongLength (taken + left.length) "fewer elements in array"))
    | .held =>
      .error (.shape (.wrongLength (taken + left.length) (elements taken ++ " in sequence")))

/-- A record with named fields, as an object of the fields in any order or as an array of them in
theirs. -/
def record {τ σ : Type} (title : String) (fields : Fields τ) (make : τ → σ) (split : σ → τ) :
    Format σ where
  read o
    | .array items closed => do
      let expected := "struct " ++ title ++ " with " ++ elements fields.length
      let (t, left) ← fields.readItems o expected 0 items closed
      checkEnd o fields.length left closed
      return make t
    | .object members closed => do
      let draft ← fields.readMembers o members fields.blank
      if !closed then .error .garbled
      return make (← fields.finish draft)
    | n => .error (.mismatch n ("struct " ++ title))
  write s := .object (fields.write (split s)) true

end Format

end VideoCall.Json

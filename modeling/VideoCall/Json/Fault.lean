import VideoCall.Json.Node
import VideoCall.Text.Quoted

/-!
# What can be wrong with a document

A document is refused for one of two reasons: it is garbled, so that it is no JSON text up to some
place, or a part of it has the wrong shape. The first reason from the left is the one that counts.

## Main definitions

* `Json.Found` : what stands in a place, as far as a message names it.
* `Json.Problem` : a part of the wrong shape.
* `Json.Fault` : garbled, or a problem.
* `Json.Problem.message` : the words for a problem.
* `Json.Fault.mismatch` : the fault of a part that should have been something else.
-/

namespace VideoCall.Json

/-- What stands in a place where something else should. -/
inductive Found
  | null
  | bool (b : Bool)
  | number (n : Number)
  | string (s : String)
  | sequence
  | map
  deriving DecidableEq

namespace Found

/-- The words for what was found. -/
def describe : Found → String
  | null => "null"
  | bool true => "boolean `true`"
  | bool false => "boolean `false`"
  | number (.whole n) => "integer `" ++ String.ofList (Number.wholeText n) ++ "`"
  | number (.double d) => "floating point `" ++ String.ofList d.text ++ "`"
  | string s => "string " ++ Text.quoted s
  | sequence => "sequence"
  | map => "map"

end Found

/-- A part of a document that has the wrong shape. -/
inductive Problem
  /-- Something of another type than expected. -/
  | wrongType (found : Found) (expected : String)
  /-- Something of the right type that is not acceptable. -/
  | wrongValue (found : Found) (expected : String)
  /-- A sequence of a wrong length. -/
  | wrongLength (length : Nat) (expected : String)
  /-- A name that is none of those known. -/
  | unknownVariant (name : String) (known : List String)
  | missingField (name : String)
  | duplicateField (name : String)
  deriving DecidableEq

namespace Problem

/-- A name in the marks that messages put around it. -/
def marked (name : String) : String := "`" ++ name ++ "`"

/-- The words for the names that would have been right. -/
def describeKnown : List String → String
  | [] => "there are no variants"
  | [a] => "expected " ++ marked a
  | [a, b] => "expected " ++ marked a ++ " or " ++ marked b
  | names => "expected one of " ++ String.intercalate ", " (names.map marked)

/-- The words for a problem. -/
def message : Problem → String
  | wrongType found expected => "invalid type: " ++ found.describe ++ ", expected " ++ expected
  | wrongValue found expected => "invalid value: " ++ found.describe ++ ", expected " ++ expected
  | wrongLength length expected =>
    "invalid length " ++ toString length ++ ", expected " ++ expected
  | unknownVariant name known => "unknown variant " ++ marked name ++ ", " ++ describeKnown known
  | missingField name => "missing field " ++ marked name
  | duplicateField name => "duplicate field " ++ marked name

end Problem

/-- Why a document is refused. -/
inductive Fault
  /-- Up to some place the text is no JSON text. -/
  | garbled
  /-- A part has the wrong shape. -/
  | shape (p : Problem)
  deriving DecidableEq

namespace Fault

/-- The fault of a part that should have been something else. A number or a text that stands for
nothing, and a place where something is missing, are garbled. -/
def mismatch (n : Node) (expected : String) : Fault :=
  match n with
  | .null => shape (.wrongType .null expected)
  | .bool b => shape (.wrongType (.bool b) expected)
  | .number (some n) => shape (.wrongType (.number n) expected)
  | .number none => garbled
  | .string (some s) => shape (.wrongType (.string s) expected)
  | .string none => garbled
  | .array _ _ => shape (.wrongType .sequence expected)
  | .object _ _ => shape (.wrongType .map expected)
  | .cut => garbled

end Fault

end VideoCall.Json

import VideoCall.Json.Node

/-!
# The text of a document

A document is written without blanks, with the members in the order they have in it. Quotation marks
and backslashes follow a backslash, the five common controls have a letter, the other control
characters are written by their code units, and every other character stands for itself.

## Main definitions

* `Json.Node.text` : the text of a document.
* `Json.Value.text` : the text of a free-form value.
-/

namespace VideoCall.Json

namespace Writer

/-- A digit of a hexadecimal numeral, with letters in lower case. -/
def hexDigit (n : Nat) : Char :=
  if n % 16 < 10 then Char.ofNat ('0'.toNat + n % 16) else Char.ofNat ('a'.toNat + (n % 16 - 10))

/-- How a character is written inside a quoted text. -/
def quotedChar (c : Char) : List Char :=
  match c with
  | '"' => ['\\', '"']
  | '\\' => ['\\', '\\']
  | '\x08' => ['\\', 'b']
  | '\x0c' => ['\\', 'f']
  | '\n' => ['\\', 'n']
  | '\r' => ['\\', 'r']
  | '\t' => ['\\', 't']
  | c =>
    if c.toNat < 0x20 then ['\\', 'u', '0', '0', hexDigit (c.toNat / 16), hexDigit c.toNat] else [c]

/-- A text between quotation marks. -/
def quoted (s : String) : List Char := '"' :: s.toList.flatMap quotedChar ++ ['"']

/-- The characters of a name. -/
def name : Key → List Char
  | .name s => quoted s
  | .unreadable => []

end Writer

namespace Node

mutual

/-- The characters of a document. What stands for nothing is not written. -/
def chars : Node → List Char
  | null => ['n', 'u', 'l', 'l']
  | bool true => ['t', 'r', 'u', 'e']
  | bool false => ['f', 'a', 'l', 's', 'e']
  | number (some n) => n.text
  | number none => []
  | string (some s) => Writer.quoted s
  | string none => []
  | array items _ => '[' :: itemChars items ++ [']']
  | object members _ => '\x7b' :: memberChars members ++ ['\x7d']
  | cut => []

/-- The characters of items, with commas between them. -/
def itemChars : List Node → List Char
  | [] => []
  | n :: r => n.chars ++ moreItemChars r

/-- The characters of further items, with a comma before each. -/
def moreItemChars : List Node → List Char
  | [] => []
  | n :: r => ',' :: n.chars ++ moreItemChars r

/-- The characters of members, with commas between them. -/
def memberChars : List (Key × Node) → List Char
  | [] => []
  | (k, n) :: r => Writer.name k ++ ':' :: n.chars ++ moreMemberChars r

/-- The characters of further members, with a comma before each. -/
def moreMemberChars : List (Key × Node) → List Char
  | [] => []
  | (k, n) :: r => ',' :: Writer.name k ++ ':' :: n.chars ++ moreMemberChars r

end

/-- The text of a document. -/
def text (n : Node) : String := String.ofList n.chars

end Node

/-- The text of a free-form value. -/
def Value.text (v : Value) : String := (Node.ofValue v).text

end VideoCall.Json

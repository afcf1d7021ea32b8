import VideoCall.Text.Unprintable

/-!
# Quoted text

A quoted text shows every character. Quotation marks and backslashes follow a backslash, the common
controls have a letter, and every other character that does not show by itself is written by its
code point in hexadecimal.

## Main definitions

* `Text.quoted` : a text between quotation marks.
-/

namespace VideoCall.Text

/-- How a character stands inside a quoted text. -/
def quotedChar (c : Char) : List Char :=
  match c with
  | '\x00' => ['\\', '0']
  | '\t' => ['\\', 't']
  | '\r' => ['\\', 'r']
  | '\n' => ['\\', 'n']
  | '\\' => ['\\', '\\']
  | '"' => ['\\', '"']
  | c =>
    if isUnprintable c then ['\\', 'u', '\x7b'] ++ Nat.toDigits 16 c.toNat ++ ['\x7d'] else [c]

/-- The text between quotation marks, with every character shown. -/
def quoted (s : String) : String :=
  "\"" ++ String.ofList (s.toList.flatMap quotedChar) ++ "\""

end VideoCall.Text

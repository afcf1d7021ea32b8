import VideoCall.Json.Node

/-!
# The tokens of a JSON text

A text is cut into brackets, commas, colons, literals, numbers and quoted texts, with blanks between
them. The list of tokens ends with the mark `bad` where the rest of the text begins no token.

## Main definitions

* `Json.Token` : a token.
* `Json.Token.scan` : the tokens of a text.
-/

namespace VideoCall.Json

/-- A token of a JSON text. -/
inductive Token
  | openArray
  | closeArray
  | openObject
  | closeObject
  | comma
  | colon
  | null
  | bool (b : Bool)
  | number (n : Option Number)
  | string (s : Option String)
  /-- No token begins here. -/
  | bad
  deriving DecidableEq

namespace Token

/-- The four blanks of a JSON text. -/
def isBlank (c : Char) : Bool := c = ' ' || c = '\n' || c = '\t' || c = '\r'

/-- The value of a decimal digit. -/
def digit? (c : Char) : Option Nat :=
  if '0' ≤ c && c ≤ '9' then some (c.toNat - '0'.toNat) else none

/-- The value of a hexadecimal digit, with letters in either case. -/
def hexDigit? (c : Char) : Option Nat :=
  if '0' ≤ c && c ≤ '9' then some (c.toNat - '0'.toNat)
  else if 'a' ≤ c && c ≤ 'f' then some (c.toNat - 'a'.toNat + 10)
  else if 'A' ≤ c && c ≤ 'F' then some (c.toNat - 'A'.toNat + 10)
  else none

/-! ### Quoted texts -/

/-- The number of four hexadecimal digits. -/
def hex4? (a b c d : Char) : Option Nat := do
  return ((← hexDigit? a) * 16 + (← hexDigit? b)) * 256 + (← hexDigit? c) * 16 + (← hexDigit? d)

/-- What a letter behind a backslash stands for. -/
def escape? : Char → Option Nat
  | '"' => some 0x22
  | '\\' => some 0x5C
  | '/' => some 0x2F
  | 'b' => some 0x08
  | 'f' => some 0x0C
  | 'n' => some 0x0A
  | 'r' => some 0x0D
  | 't' => some 0x09
  | _ => none

/-- The code points and code units up to the closing quotation mark, with what follows the mark. A
control character, an unknown letter behind a backslash and a missing mark are out of place. -/
def quoted : List Char → Option (List Nat × List Char)
  | [] => none
  | '"' :: r => some ([], r)
  | '\\' :: 'u' :: a :: b :: c :: d :: r => do
    let u ← hex4? a b c d
    let (us, rest) ← quoted r
    return (u :: us, rest)
  | '\\' :: e :: r => do
    let u ← escape? e
    let (us, rest) ← quoted r
    return (u :: us, rest)
  | ['\\'] => none
  | c :: r =>
    if c.toNat < 0x20 then none else do
      let (us, rest) ← quoted r
      return (c.toNat :: us, rest)

theorem length_quoted {cs : List Char} {us : List Nat} {rest : List Char}
    (h : quoted cs = some (us, rest)) : rest.length < cs.length := by
  fun_induction quoted cs generalizing us rest <;> simp_all [Option.bind_eq_some_iff]
  all_goals grind

/-- The characters of code points and code units. Two code units that form a surrogate pair make one
character, and a code unit of a pair alone makes none. -/
def characters? : List Nat → Option (List Char)
  | [] => some []
  | [u] => if 0xD800 ≤ u && u ≤ 0xDFFF then none else some [Char.ofNat u]
  | u :: w :: r =>
    if 0xD800 ≤ u && u ≤ 0xDBFF then
      if 0xDC00 ≤ w && w ≤ 0xDFFF then
        (characters? r).map (Char.ofNat (0x10000 + (u - 0xD800) * 0x400 + (w - 0xDC00)) :: ·)
      else none
    else if 0xDC00 ≤ u && u ≤ 0xDFFF then none
    else (characters? (w :: r)).map (Char.ofNat u :: ·)

/-- The text of code points and code units. -/
def text? (us : List Nat) : Option String := (characters? us).map String.ofList

/-! ### Numbers -/

/-- The digits at the front, with what follows them. -/
def digits : List Char → List Nat × List Char
  | [] => ([], [])
  | c :: r =>
    match digit? c with
    | some d => let (ds, rest) := digits r; (d :: ds, rest)
    | none => ([], c :: r)

theorem length_digits (cs : List Char) : (digits cs).2.length ≤ cs.length := by
  fun_induction digits cs <;> grind

/-- The digits before the point: a zero alone, or digits of which the first is none. -/
def wholePart (cs : List Char) : Option (List Nat × List Char) :=
  match digits cs with
  | ([], _) => none
  | ([0], rest) => some ([0], rest)
  | (0 :: _ :: _, _) => none
  | (ds, rest) => some (ds, rest)

/-- The digits behind a point, if a point is next. -/
def fractionPart : List Char → Option (Option (List Nat) × List Char)
  | '.' :: r =>
    match digits r with
    | ([], _) => none
    | (ds, rest) => some (some ds, rest)
  | cs => some (none, cs)

/-- The sign in front of an exponent's digits: whether it is minus. -/
def exponentSign : List Char → Bool × List Char
  | '-' :: r => (true, r)
  | '+' :: r => (false, r)
  | cs => (false, cs)

/-- The sign and digits behind a letter `e`, if one is next. -/
def exponentDigits (cs : List Char) : Option (Option (Bool × List Nat) × List Char) :=
  let (down, cs) := exponentSign cs
  match digits cs with
  | ([], _) => none
  | (ds, rest) => some (some (down, ds), rest)

/-- The exponent, if there is one. -/
def exponentPart : List Char → Option (Option (Bool × List Nat) × List Char)
  | 'e' :: r => exponentDigits r
  | 'E' :: r => exponentDigits r
  | cs => some (none, cs)

/-- The minus sign in front of a number. -/
def minus : List Char → Bool × List Char
  | '-' :: r => (true, r)
  | cs => (false, cs)

/-- A number at the front, with what follows it. -/
def numeral (cs : List Char) : Option (Numeral × List Char) := do
  let (negative, cs) := minus cs
  let (whole, cs) ← wholePart cs
  let (fraction, cs) ← fractionPart cs
  let (exponent, cs) ← exponentPart cs
  return (⟨negative, whole, fraction, exponent⟩, cs)

theorem length_wholePart {cs : List Char} {ds : List Nat} {rest : List Char}
    (h : wholePart cs = some (ds, rest)) : rest.length < cs.length := by
  have hne : ∀ ds s, digits cs = (ds, s) → ds ≠ [] → s.length < cs.length := by
    intro ds s hs hds
    cases cs with
    | nil => simp_all [digits]
    | cons c t =>
      have ht := length_digits t
      unfold digits at hs
      split at hs
      · simp only [Prod.mk.injEq] at hs
        rw [← hs.2]
        exact Nat.lt_succ_of_le ht
      · simp_all
  unfold wholePart at h
  split at h <;> simp only [Option.some.injEq, Prod.mk.injEq, reduceCtorEq] at h
  · obtain ⟨-, rfl⟩ := h
    exact hne _ _ ‹_› (by simp)
  · obtain ⟨-, rfl⟩ := h
    exact hne _ _ ‹_› (by rintro rfl; simp_all)

theorem length_fractionPart {cs : List Char} {f : Option (List Nat)} {rest : List Char}
    (h : fractionPart cs = some (f, rest)) : rest.length ≤ cs.length := by
  unfold fractionPart at h
  split at h
  · rename_i r
    have := length_digits r
    split at h <;> simp_all
    grind
  · simp_all

theorem length_exponentSign (cs : List Char) : (exponentSign cs).2.length ≤ cs.length := by
  unfold exponentSign
  split <;> simp

theorem length_exponentDigits {cs : List Char} {e : Option (Bool × List Nat)} {rest : List Char}
    (h : exponentDigits cs = some (e, rest)) : rest.length ≤ cs.length := by
  have h₁ := length_exponentSign cs
  have h₂ := length_digits (exponentSign cs).2
  unfold exponentDigits at h
  split at h
  rename_i down cs' heq
  simp only [heq] at h₁ h₂
  split at h <;> simp_all
  grind

theorem length_exponentPart {cs : List Char} {e : Option (Bool × List Nat)} {rest : List Char}
    (h : exponentPart cs = some (e, rest)) : rest.length ≤ cs.length := by
  unfold exponentPart at h
  split at h
  · exact Nat.le_succ_of_le (length_exponentDigits h)
  · exact Nat.le_succ_of_le (length_exponentDigits h)
  · simp_all

theorem length_minus (cs : List Char) : (minus cs).2.length ≤ cs.length := by
  unfold minus
  split <;> simp

theorem length_numeral {cs : List Char} {n : Numeral} {rest : List Char}
    (h : numeral cs = some (n, rest)) : rest.length < cs.length := by
  have h₀ := length_minus cs
  simp only [numeral, Option.bind_eq_bind, Option.bind_eq_some_iff, Option.pure_def,
    Option.some.injEq, Prod.mk.injEq, Prod.exists] at h
  obtain ⟨ds, r₁, hw, f, r₂, hf, e, r₃, he, -, rfl⟩ := h
  have h₁ := length_wholePart hw
  have h₂ := length_fractionPart hf
  have h₃ := length_exponentPart he
  omega

/-! ### Tokens -/

/-- What follows a word at the front of the text. -/
def afterWord (word cs : List Char) : Option (List Char) :=
  if word.isPrefixOf cs then some (cs.drop word.length) else none

/-- A token at the front of a text that does not begin with a blank, with what follows it. -/
def next? : List Char → Option (Token × List Char)
  | '[' :: r => some (openArray, r)
  | ']' :: r => some (closeArray, r)
  | '\x7b' :: r => some (openObject, r)
  | '\x7d' :: r => some (closeObject, r)
  | ',' :: r => some (comma, r)
  | ':' :: r => some (colon, r)
  | '"' :: r => (quoted r).map fun (us, rest) => (string (text? us), rest)
  | 'n' :: r => (afterWord ['u', 'l', 'l'] r).map (null, ·)
  | 't' :: r => (afterWord ['r', 'u', 'e'] r).map (bool true, ·)
  | 'f' :: r => (afterWord ['a', 'l', 's', 'e'] r).map (bool false, ·)
  | cs => (numeral cs).map fun (n, rest) => (number n.number?, rest)

theorem length_afterWord {word cs rest : List Char} (h : afterWord word cs = some rest) :
    rest.length ≤ cs.length := by
  unfold afterWord at h
  split at h <;> simp_all
  grind

theorem length_next? {cs : List Char} {t : Token} {rest : List Char}
    (h : next? cs = some (t, rest)) : rest.length < cs.length := by
  unfold next? at h
  split at h
  iterate 6
    · cases h
      exact Nat.lt_succ_self _
  all_goals
    simp only [Option.map_eq_some_iff, Prod.mk.injEq, Prod.exists] at h
  · obtain ⟨us, r, hq, -, rfl⟩ := h
    exact Nat.lt_succ_of_lt (length_quoted hq)
  iterate 3
    · obtain ⟨r, hr, -, rfl⟩ := h
      exact Nat.lt_succ_of_le (length_afterWord hr)
  · obtain ⟨n, r, hn, -, rfl⟩ := h
    exact length_numeral hn

/-- The tokens of a text, up to the first place where none begins. -/
def scan : List Char → List Token
  | [] => []
  | c :: r =>
    if isBlank c then scan r
    else
      match _h : next? (c :: r) with
      | some (t, rest) => t :: scan rest
      | none => [bad]
termination_by cs => cs.length
decreasing_by
  · simp
  · exact length_next? _h

end Token

end VideoCall.Json

import VideoCall.Json.Writer
import VideoCall.Proofs.Json.Numerals

/-!
# What is written is cut into its tokens

However a character is written in a quoted text, it is read as itself. So the front of a written
document is the token that it begins with, whatever follows; only behind a number it matters that
the text does not go on with it.

## Main results

* `Json.Token.quoted_flatMap`, `Json.Token.text?_codes` : a quoted text is read back.
* `Json.Token.scan_quoted`, `Json.Token.scan_number` : the tokens of texts and numbers.
-/

namespace VideoCall.Json.Token

/-! ### Quoted texts -/

/-- The two digits of a control character are read back. -/
theorem hex4?_hexDigit {n : Nat} (h : n < 0x20) :
    hex4? '0' '0' (Writer.hexDigit (n / 16)) (Writer.hexDigit n) = some n := by
  revert n
  decide

/-- A backslash with the letter of a character is read as the character. -/
theorem quoted_escape {e : Char} {u : Nat} (h : escape? e = some u) (cs : List Char) :
    quoted ('\\' :: e :: cs) = (quoted cs).map fun p => (u :: p.1, p.2) := by
  rw [quoted.eq_def]
  split
  case h_4 d rest _ heq =>
    obtain ⟨-, htail⟩ := List.cons.inj heq
    obtain ⟨rfl, rfl⟩ := List.cons.inj htail
    rw [h]
    cases quoted cs <;> rfl
  case h_6 d rest _ _ hslash _ heq =>
    obtain ⟨rfl, rfl⟩ := List.cons.inj heq
    exact absurd rfl (hslash e cs rfl)
  all_goals simp_all [escape?]

/-- A character that needs no backslash is read as itself. -/
theorem quoted_plain {c : Char} (hquote : c ≠ '"') (hslash : c ≠ '\\') (h : 0x20 ≤ c.toNat)
    (cs : List Char) : quoted (c :: cs) = (quoted cs).map fun p => (c.toNat :: p.1, p.2) := by
  rw [quoted.eq_def]
  split
  case h_6 d rest _ _ _ _ heq =>
    obtain ⟨rfl, rfl⟩ := List.cons.inj heq
    rw [if_neg (Nat.not_lt.2 h)]
    cases quoted cs <;> rfl
  all_goals simp_all

/-- However a character is written, it is read as its code point. -/
theorem quoted_quotedChar (c : Char) (cs : List Char) :
    quoted (Writer.quotedChar c ++ cs) = (quoted cs).map fun p => (c.toNat :: p.1, p.2) := by
  unfold Writer.quotedChar
  split
  case h_8 hquote hslash _ _ _ _ _ =>
    split
    · rename_i hcontrol
      change quoted ('\\' :: 'u' :: '0' :: '0' :: _ :: _ :: cs) = _
      rw [quoted, hex4?_hexDigit hcontrol]
      cases quoted cs <;> rfl
    · rename_i hprintable
      exact quoted_plain hquote hslash (Nat.not_lt.1 hprintable) cs
  all_goals exact quoted_escape rfl cs

/-- The code points of a quoted text are read back, in front of whatever follows its mark. -/
theorem quoted_flatMap (cs rest : List Char) :
    quoted (cs.flatMap Writer.quotedChar ++ '"' :: rest) = some (cs.map Char.toNat, rest) := by
  induction cs with
  | nil => rfl
  | cons c cs ih =>
    rw [List.flatMap_cons, List.append_assoc, quoted_quotedChar, ih]
    rfl

/-- A code point is no half of a surrogate pair. -/
theorem not_surrogate (c : Char) : ¬ (0xD800 ≤ c.toNat ∧ c.toNat ≤ 0xDFFF) := by
  have h : c.toNat.isValidChar := c.valid
  unfold Nat.isValidChar at h
  omega

theorem characters?_cons (c : Char) (us : List Nat) :
    characters? (c.toNat :: us) = (characters? us).map (c :: ·) := by
  have h := not_surrogate c
  have hc : Char.ofNat c.toNat = c := Char.ofNat_toNat c
  cases us with
  | nil => simp [characters?, h, hc]
  | cons w us =>
    have hhigh : ¬ (0xD800 ≤ c.toNat ∧ c.toNat ≤ 0xDBFF) := by omega
    have hlow : ¬ (0xDC00 ≤ c.toNat ∧ c.toNat ≤ 0xDFFF) := by omega
    simp [characters?, hhigh, hlow, hc]

/-- The characters of a text are made from its code points. -/
theorem text?_codes (s : String) : text? (s.toList.map Char.toNat) = some s := by
  have h : ∀ cs : List Char, characters? (cs.map Char.toNat) = some cs := by
    intro cs
    induction cs with
    | nil => rfl
    | cons c cs ih => rw [List.map_cons, characters?_cons, ih, Option.map_some]
  rw [text?, h, Option.map_some, String.ofList_toList]

/-! ### Tokens -/

/-- The first token of a text that begins with one. -/
theorem scan_of_next? {c : Char} {cs rest : List Char} {t : Token} (hblank : isBlank c = false)
    (h : next? (c :: cs) = some (t, rest)) : scan (c :: cs) = t :: scan rest := by
  rw [scan, if_neg (Bool.eq_false_iff.1 hblank)]
  split
  · rename_i heq
    obtain ⟨rfl, rfl⟩ := Prod.mk.inj (Option.some.inj (heq.symm.trans h))
    rfl
  · rename_i heq
    cases heq.symm.trans h

theorem scan_openArray (cs : List Char) : scan ('[' :: cs) = openArray :: scan cs :=
  scan_of_next? rfl rfl

theorem scan_closeArray (cs : List Char) : scan (']' :: cs) = closeArray :: scan cs :=
  scan_of_next? rfl rfl

theorem scan_openObject (cs : List Char) : scan ('\x7b' :: cs) = openObject :: scan cs :=
  scan_of_next? rfl rfl

theorem scan_closeObject (cs : List Char) : scan ('\x7d' :: cs) = closeObject :: scan cs :=
  scan_of_next? rfl rfl

theorem scan_comma (cs : List Char) : scan (',' :: cs) = comma :: scan cs :=
  scan_of_next? rfl rfl

theorem scan_colon (cs : List Char) : scan (':' :: cs) = colon :: scan cs :=
  scan_of_next? rfl rfl

theorem scan_null (cs : List Char) : scan ('n' :: 'u' :: 'l' :: 'l' :: cs) = null :: scan cs :=
  scan_of_next? rfl rfl

theorem scan_true (cs : List Char) :
    scan ('t' :: 'r' :: 'u' :: 'e' :: cs) = bool true :: scan cs :=
  scan_of_next? rfl rfl

theorem scan_false (cs : List Char) :
    scan ('f' :: 'a' :: 'l' :: 's' :: 'e' :: cs) = bool false :: scan cs :=
  scan_of_next? rfl rfl

theorem scan_quoted (s : String) (cs : List Char) :
    scan (Writer.quoted s ++ cs) = string (some s) :: scan cs := by
  have htext : Writer.quoted s ++ cs =
      '"' :: (s.toList.flatMap Writer.quotedChar ++ '"' :: cs) := by
    simp [Writer.quoted]
  have hnext : next? ('"' :: (s.toList.flatMap Writer.quotedChar ++ '"' :: cs)) =
      some (string (some s), cs) := by
    rw [next?, quoted_flatMap, Option.map_some]
    dsimp only
    rw [text?_codes]
  rw [htext]
  exact scan_of_next? rfl hnext

/-- A numeral begins with a minus sign or a digit. -/
theorem numeral_front {c : Char} {cs : List Char} {p : Numeral × List Char}
    (h : numeral (c :: cs) = some p) : c = '-' ∨ IsFigure c := by
  by_cases hc : c = '-'
  · exact Or.inl hc
  · refine Or.inr (Option.isSome_iff_ne_none.2 fun hnone => ?_)
    have hminus : minus (c :: cs) = (false, c :: cs) := by
      unfold minus
      split
      · rename_i heq
        exact absurd (List.cons.inj heq).1 hc
      · rfl
    have hwhole : wholePart (c :: cs) = none := by
      simp [wholePart, digits, hnone]
    simp [numeral, hminus, hwhole] at h

/-- A character that begins a numeral begins no other token, and it is no blank. -/
theorem next?_numeral {c : Char} (hc : c = '-' ∨ IsFigure c) (cs : List Char) :
    isBlank c = false ∧
      next? (c :: cs) = (numeral (c :: cs)).map fun p => (number p.1.number?, p.2) := by
  have hne : ∀ d, digit? d = none → d ≠ '-' → c ≠ d := by
    rintro d hd hminus rfl
    rcases hc with rfl | hc
    · exact hminus rfl
    · rw [IsFigure, hd] at hc
      cases hc
  constructor
  · simp only [isBlank, hne ' ' rfl (by decide), hne '\n' rfl (by decide),
      hne '\t' rfl (by decide), hne '\r' rfl (by decide), decide_false, Bool.or_self]
  · rw [next?.eq_def]
    split
    case h_11 => rfl
    all_goals
      rename_i heq
      exact absurd (List.cons.inj heq).1 (hne _ rfl (by decide))

/-- The text of a number is one token. -/
theorem scan_number (x : Number) {rest : List Char} (h : Stops rest) :
    scan (x.text ++ rest) = number x.reread :: scan rest := by
  obtain ⟨n, hn, hreread⟩ := x.numeral_text h
  cases htext : x.text ++ rest with
  | nil =>
    rw [htext] at hn
    cases hn
  | cons c cs =>
    rw [htext] at hn
    obtain ⟨hblank, hnext⟩ := next?_numeral (numeral_front hn) cs
    rw [hn] at hnext
    rw [scan_of_next? hblank hnext, hreread]

end VideoCall.Json.Token

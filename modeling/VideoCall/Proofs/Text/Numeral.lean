import Mathlib.Data.List.Induction
import Mathlib.Data.Nat.Digits.Defs
import VideoCall.Proofs.Text.Blank
import VideoCall.Text.Numeral

/-!
# Numerals, as they are written

A number is written as one or more digits, with a plus sign in front or none, and blank characters
around. The digits stand for the number, the first one for the most, and the number is below `2⁶⁴`.

## Main definitions

* `Text.Numeral` : a text that stands for a number.

## Main results

* `Text.unsigned?_trim_eq_some_iff` : these texts are read, and no others.
-/

namespace VideoCall.Text

/-- What a digit stands for. -/
def digit (c : Char) : Nat := c.toNat - '0'.toNat

/-- One or more digits, with a plus sign in front or none, that stand for a number below `2⁶⁴`. -/
structure Digits (cs : List Char) (n : Nat) : Prop where
  exists_eq : ∃ plus digits, cs = plus ++ digits ∧ (plus = [] ∨ plus = ['+']) ∧ digits ≠ [] ∧
    (∀ c ∈ digits, c.isDigit = true) ∧ Nat.ofDigits 10 (digits.reverse.map digit) = n
  lt : n < 2 ^ 64

/-- A text that stands for a number: its digits, and blank characters around. -/
def Numeral (raw : String) (n : Nat) : Prop :=
  ∃ before cs after, raw.toList = before ++ cs ++ after ∧ (∀ c ∈ before, isBlank c = true) ∧
    (∀ c ∈ after, isBlank c = true) ∧ Digits cs n

/-! ### Reading the digits -/

theorem digitsValue_eq (cs : List Char) :
    digitsValue cs = Nat.ofDigits 10 (cs.reverse.map digit) := by
  induction cs using List.reverseRecOn with
  | nil => rfl
  | append_singleton cs c ih =>
    have hvalue : digitsValue (cs ++ [c]) = 10 * digitsValue cs + digit c := by
      rw [digitsValue, List.foldl_append]
      rfl
    rw [hvalue, ih, List.reverse_append, List.reverse_singleton, List.singleton_append,
      List.map_cons, Nat.ofDigits_cons, Nat.add_comm]

theorem exists_plus (cs : List Char) :
    ∃ plus, cs = plus ++ afterPlus cs ∧ (plus = [] ∨ plus = ['+']) := by
  unfold afterPlus
  split
  · exact ⟨['+'], rfl, .inr rfl⟩
  · exact ⟨[], rfl, .inl rfl⟩

theorem afterPlus_append {plus digits : List Char} (hplus : plus = [] ∨ plus = ['+'])
    (hdigits : ∀ c ∈ digits, c.isDigit = true) : afterPlus (plus ++ digits) = digits := by
  rcases hplus with rfl | rfl
  · rw [List.nil_append]
    unfold afterPlus
    split
    · exact absurd (hdigits '+' List.mem_cons_self) (by decide)
    · rfl
  · rfl

theorem unsigned?_eq_some_iff (s : String) (n : Nat) :
    unsigned? s = some n ↔ Digits s.toList n := by
  unfold unsigned?
  generalize s.toList = cs
  dsimp only
  constructor
  · intro h
    split at h
    · cases h
    · rename_i hdigits
      split at h
      · rename_i hlt
        obtain rfl := Option.some.inj h
        obtain ⟨plus, hcs, hplus⟩ := exists_plus cs
        rw [Bool.or_eq_true, not_or, List.isEmpty_iff, Bool.not_eq_true', Bool.not_eq_false,
          List.all_eq_true] at hdigits
        exact ⟨⟨plus, _, hcs, hplus, hdigits.1, hdigits.2, (digitsValue_eq _).symm⟩, hlt⟩
      · cases h
  · rintro ⟨⟨plus, digits, rfl, hplus, hne, hdigits, rfl⟩, hlt⟩
    have hread : (digits.isEmpty || !digits.all Char.isDigit) = false := by
      simpa [hne] using hdigits
    rw [afterPlus_append hplus hdigits, hread, digitsValue_eq]
    exact if_pos hlt

/-! ### Blank characters around them -/

theorem isBlank_of_isDigit {c : Char} (h : c.isDigit = true) : isBlank c = false := by
  have hrange : 48 ≤ c.toNat ∧ c.toNat ≤ 57 := by
    simpa [Char.isDigit, UInt32.le_iff_toNat_le] using h
  simp only [isBlank, Bool.or_eq_false_iff, Bool.and_eq_false_iff, decide_eq_false_iff_not]
  omega

/-- A numeral neither begins nor ends with a blank character. -/
theorem Digits.trims {before cs after : List Char} {n : Nat} (h : Digits cs n)
    (hbefore : ∀ c ∈ before, isBlank c = true) (hafter : ∀ c ∈ after, isBlank c = true) :
    Trims (before ++ cs ++ after) cs := by
  obtain ⟨⟨plus, digits, rfl, hplus, hne, hdigits, -⟩, -⟩ := h
  have hall : ∀ c ∈ plus ++ digits, isBlank c = false := by
    intro c hc
    rcases List.mem_append.1 hc with hc | hc
    · rcases hplus with rfl | rfl
      · cases hc
      · obtain rfl := List.mem_singleton.1 hc
        rfl
    · exact isBlank_of_isDigit (hdigits c hc)
  exact ⟨⟨before, after, rfl, hbefore, hafter⟩, fun c hc => hall c (List.mem_of_mem_head? hc),
    fun c hc => hall c (List.mem_of_mem_getLast? hc)⟩

/-- The texts that are read are those that stand for a number. -/
theorem unsigned?_trim_eq_some_iff (raw : String) (n : Nat) :
    unsigned? (trim raw) = some n ↔ Numeral raw n := by
  rw [unsigned?_eq_some_iff, trim, String.toList_ofList]
  constructor
  · intro h
    obtain ⟨before, after, hraw, hbefore, hafter⟩ := (trims_trimChars raw.toList).between
    exact ⟨before, _, after, hraw, hbefore, hafter, h⟩
  · rintro ⟨before, cs, after, hraw, hbefore, hafter, h⟩
    rw [hraw, trims_iff.1 (h.trims hbefore hafter)]
    exact h

end VideoCall.Text

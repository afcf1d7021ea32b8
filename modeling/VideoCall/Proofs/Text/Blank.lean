import Mathlib.Data.List.DropRight
import VideoCall.Text.Blank

/-!
# Trimming

What is left of a text when it is trimmed is described without a loop: it neither begins nor ends
with a blank character, and around it there were none but blank ones.

## Main definitions

* `Text.Trims` : what is left of a text between the blank characters at its ends.

## Main results

* `Text.trims_iff` : that is what trimming leaves, and nothing else.
-/

namespace VideoCall.Text

/-- What is left of a text between the blank characters at its ends. -/
structure Trims (cs inner : List Char) : Prop where
  between : ∃ before after, cs = before ++ inner ++ after ∧
    (∀ c ∈ before, isBlank c = true) ∧ ∀ c ∈ after, isBlank c = true
  head : ∀ c ∈ inner.head?, isBlank c = false
  last : ∀ c ∈ inner.getLast?, isBlank c = false

/-- Blank characters in front are dropped, up to the first one that is not blank. -/
theorem dropWhile_isBlank {before cs : List Char} (hbefore : ∀ c ∈ before, isBlank c = true)
    (hcs : ∀ c ∈ cs.head?, isBlank c = false) : (before ++ cs).dropWhile isBlank = cs := by
  rw [List.dropWhile_append_of_pos hbefore]
  cases cs with
  | nil => rfl
  | cons c cs =>
    exact List.dropWhile_cons_of_neg (Bool.eq_false_iff.1 (hcs c (Option.mem_some_self c)))

theorem isBlank_of_head?_dropWhile {cs : List Char} {c : Char}
    (h : (cs.dropWhile isBlank).head? = some c) : isBlank c = false := by
  have hnot := List.head?_dropWhile_not isBlank cs
  rw [h] at hnot
  exact hnot

theorem trims_trimChars (cs : List Char) : Trims cs (trimChars cs) where
  between := by
    refine ⟨cs.takeWhile isBlank, (cs.dropWhile isBlank).rtakeWhile isBlank, ?_,
      fun c => List.mem_takeWhile_imp, fun c => List.mem_rtakeWhile_imp⟩
    change cs = _ ++ (cs.dropWhile isBlank).rdropWhile isBlank ++ _
    rw [List.append_assoc, List.rdropWhile_append_rtakeWhile, List.takeWhile_append_dropWhile]
  head c hc := by
    obtain ⟨after, hafter⟩ := List.rdropWhile_prefix isBlank (cs.dropWhile isBlank)
    have hhead : (cs.dropWhile isBlank).head? = some c := by
      rw [← hafter, List.head?_append]
      exact congrArg (Option.or · _) hc
    exact isBlank_of_head?_dropWhile hhead
  last c hc := by
    rw [trimChars, List.getLast?_reverse] at hc
    exact isBlank_of_head?_dropWhile hc

/-- Trimming leaves what is between the blank characters at the ends, and nothing else. -/
theorem trims_iff {cs inner : List Char} : Trims cs inner ↔ trimChars cs = inner := by
  constructor
  · rintro ⟨⟨before, after, rfl, hbefore, hafter⟩, hhead, hlast⟩
    cases inner with
    | nil =>
      -- everything is blank, so nothing is left to trim at the other end
      have hall : ∀ c ∈ before ++ [] ++ after, isBlank c = true := by
        simpa [or_imp, forall_and] using ⟨hbefore, hafter⟩
      rw [trimChars, List.dropWhile_eq_nil_iff.2 hall]
      rfl
    | cons c inner =>
      have hfront : (before ++ (c :: inner) ++ after).dropWhile isBlank =
          (c :: inner) ++ after := by
        rw [List.append_assoc]
        exact dropWhile_isBlank hbefore hhead
      have hback : (after.reverse ++ (c :: inner).reverse).dropWhile isBlank =
          (c :: inner).reverse := by
        refine dropWhile_isBlank (fun c' hc' => hafter c' (List.mem_reverse.1 hc')) fun c' hc' => ?_
        rw [List.head?_reverse] at hc'
        exact hlast c' hc'
      rw [trimChars, hfront, List.reverse_append, hback, List.reverse_reverse]
  · rintro rfl
    exact trims_trimChars cs

/-- Nothing is left of a text, and only then, if all of it is blank. -/
theorem trimChars_eq_nil_iff {cs : List Char} :
    trimChars cs = [] ↔ ∀ c ∈ cs, isBlank c = true := by
  constructor
  · intro h
    obtain ⟨before, after, hcs, hbefore, hafter⟩ := (trims_iff.2 h).between
    rw [hcs, List.append_nil, List.forall_mem_append]
    exact ⟨hbefore, hafter⟩
  · intro h
    rw [trimChars, List.dropWhile_eq_nil_iff.2 h]
    rfl

end VideoCall.Text

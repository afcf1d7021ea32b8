import Mathlib.Data.List.Basic
import VideoCall.Json.Token

/-!
# Numbers are written as numerals

Every number is written as one numeral, which ends where something else follows it than a digit, a
point, or the letter of an exponent. A whole number in the range of 64 bits is read back as itself.
A double may be read back as another one, since reading rounds twice.

## Main definitions

* `Json.Token.figures` : the values of digits.
* `Json.Token.Stops` : a text that does not go on with a numeral.
* `Json.Number.reread` : what a number is read back as.

## Main results

* `Json.Token.numeral_append` : the parts of a numeral are found again.
* `Json.Number.numeral_text` : the text of a number is a numeral.
* `Json.Number.reread_whole` : a whole number in range is read back as itself.
-/

namespace VideoCall

namespace Json.Token

/-! ### Digits -/

/-- A character is a digit. -/
def IsFigure (c : Char) : Prop := (digit? c).isSome

/-- The values of digits. -/
def figures (cs : List Char) : List Nat := cs.filterMap digit?

/-- A text does not go on with digits. -/
def EndsDigits (rest : List Char) : Prop := ∀ c ∈ rest.head?, digit? c = none

theorem digits_append {cs rest : List Char} (hcs : ∀ c ∈ cs, IsFigure c) (hrest : EndsDigits rest) :
    digits (cs ++ rest) = (figures cs, rest) := by
  induction cs with
  | nil =>
    cases rest with
    | nil => rfl
    | cons c rest => simp [digits, figures, hrest c rfl]
  | cons c cs ih =>
    obtain ⟨d, hd⟩ := Option.isSome_iff_exists.1 (hcs c List.mem_cons_self)
    have hrest := ih fun c hc => hcs c (List.mem_cons_of_mem _ hc)
    simp [digits, figures, hd, hrest]

theorem figures_ne_nil {cs : List Char} (hcs : ∀ c ∈ cs, IsFigure c) (hne : cs ≠ []) :
    figures cs ≠ [] := by
  obtain ⟨c, cs, rfl⟩ := List.exists_cons_of_ne_nil hne
  obtain ⟨d, hd⟩ := Option.isSome_iff_exists.1 (hcs c List.mem_cons_self)
  simp [figures, hd]

/-- Only the character `0` has the value zero. -/
theorem eq_zero_of_digit? {c : Char} (h : digit? c = some 0) : c = '0' := by
  unfold digit? at h
  split at h
  · rename_i hc
    have hle : '0'.toNat ≤ c.toNat := (Bool.and_eq_true_iff.1 hc).1 |> of_decide_eq_true
    have hzero : c.toNat - '0'.toNat = 0 := Option.some.inj h
    exact Char.toNat_inj.1 (by omega)
  · cases h

/-! ### Decimals -/

/-- The characters of decimals are digits. -/
theorem isFigure_of_mem_toDigits {n : Nat} {c : Char} (h : c ∈ Nat.toDigits 10 n) : IsFigure c := by
  have hc : ('0' ≤ c && c ≤ '9') = true := Nat.isDigit_of_mem_toDigits (by decide) (by decide) h
  unfold IsFigure digit?
  rw [if_pos hc]
  rfl

theorem digit?_digitChar {d : Nat} (h : d < 10) : digit? d.digitChar = some d := by
  revert d
  decide

theorem figures_toDigits_of_lt {n : Nat} (h : n < 10) : figures (Nat.toDigits 10 n) = [n] := by
  simp [figures, Nat.toDigits_of_lt_base h, digit?_digitChar h]

theorem figures_toDigits_of_le {n : Nat} (h : 10 ≤ n) :
    figures (Nat.toDigits 10 n) = figures (Nat.toDigits 10 (n / 10)) ++ [n % 10] := by
  have hlast : digit? (n % 10).digitChar = some (n % 10) := digit?_digitChar (by omega)
  simp [figures, Nat.toDigits_of_base_le (by decide) h, hlast]

/-- The decimal of a number other than zero begins with another digit than zero. -/
theorem head?_toDigits {n : Nat} (h : n ≠ 0) : (Nat.toDigits 10 n).head? ≠ some '0' := by
  induction n using Nat.strongRecOn with
  | ind n ih =>
    by_cases hn : n < 10
    · rw [Nat.toDigits_of_lt_base hn]
      intro hzero
      have hd := digit?_digitChar hn
      rw [Option.some.inj hzero] at hd
      exact h (Option.some.inj hd).symm
    · rw [Nat.toDigits_of_base_le (by decide) (by omega),
        List.head?_append_of_ne_nil _ Nat.toDigits_ne_nil]
      exact ih (n / 10) (by omega) (by omega)

/-! ### The parts of a numeral -/

/-- Digits that may stand before the point: a zero alone, or digits of which the first is none. -/
structure IsWhole (cs : List Char) : Prop where
  figures : ∀ c ∈ cs, IsFigure c
  ne_nil : cs ≠ []
  lead : cs = ['0'] ∨ cs.head? ≠ some '0'

theorem isWhole_zero : IsWhole ['0'] where
  figures _ hc := List.mem_singleton.1 hc ▸ rfl
  ne_nil := List.cons_ne_nil _ _
  lead := Or.inl rfl

theorem isWhole_toDigits (n : Nat) : IsWhole (Nat.toDigits 10 n) where
  figures _ hc := isFigure_of_mem_toDigits hc
  ne_nil := Nat.toDigits_ne_nil
  lead := by
    by_cases hn : n = 0
    · subst hn
      exact Or.inl (by decide)
    · exact Or.inr (head?_toDigits hn)

theorem wholePart_append {cs rest : List Char} (hcs : IsWhole cs) (hrest : EndsDigits rest) :
    wholePart (cs ++ rest) = some (Token.figures cs, rest) := by
  unfold wholePart
  rw [digits_append hcs.figures hrest]
  rcases hcs.lead with rfl | hlead
  · rfl
  · obtain ⟨c, cs, rfl⟩ := List.exists_cons_of_ne_nil hcs.ne_nil
    obtain ⟨d, hd⟩ := Option.isSome_iff_exists.1 (hcs.figures c List.mem_cons_self)
    have hfigures : Token.figures (c :: cs) = d :: Token.figures cs := by
      simp [Token.figures, hd]
    rw [hfigures]
    match d, Token.figures cs with
    | 0, _ => exact absurd (congrArg some (eq_zero_of_digit? hd)) hlead
    | d + 1, _ => rfl

/-- The characters of a fraction. -/
def fractionText : Option (List Char) → List Char
  | none => []
  | some cs => '.' :: cs

/-- The characters of an exponent, of which the sign is written. -/
def exponentText : Option (Bool × List Char) → List Char
  | none => []
  | some (down, cs) => 'e' :: (if down then '-' else '+') :: cs

/-- A text does not go on with a numeral. -/
def Stops (rest : List Char) : Prop :=
  ∀ c ∈ rest.head?, digit? c = none ∧ c ≠ '.' ∧ c ≠ 'e' ∧ c ≠ 'E'

theorem Stops.endsDigits {rest : List Char} (h : Stops rest) : EndsDigits rest :=
  fun c hc => (h c hc).1

theorem exponentPart_append {exponent : Option (Bool × List Char)} {rest : List Char}
    (hexponent : ∀ e ∈ exponent, (∀ c ∈ e.2, IsFigure c) ∧ e.2 ≠ []) (hrest : Stops rest) :
    exponentPart (exponentText exponent ++ rest) =
      some (exponent.map fun e => (e.1, figures e.2), rest) := by
  cases exponent with
  | none =>
    cases rest with
    | nil => rfl
    | cons c rest =>
      obtain ⟨-, -, he, hE⟩ := hrest c rfl
      simp [exponentText, exponentPart, he, hE]
  | some e =>
    obtain ⟨down, cs⟩ := e
    obtain ⟨hcs, hne⟩ := hexponent _ rfl
    have hdigits := digits_append hcs hrest.endsDigits
    have hsign : exponentSign ((if down then '-' else '+') :: (cs ++ rest)) =
        (down, cs ++ rest) := by
      cases down <;> rfl
    change exponentDigits ((if down then '-' else '+') :: (cs ++ rest)) = _
    unfold exponentDigits
    rw [hsign]
    dsimp only
    rw [hdigits]
    cases hf : figures cs with
    | nil => exact absurd hf (figures_ne_nil hcs hne)
    | cons d ds => simp [hf]

theorem fractionPart_append {fraction : Option (List Char)} {rest : List Char}
    (hfraction : ∀ cs ∈ fraction, (∀ c ∈ cs, IsFigure c) ∧ cs ≠ []) (hdigits : EndsDigits rest)
    (hpoint : ∀ c ∈ rest.head?, c ≠ '.') :
    fractionPart (fractionText fraction ++ rest) = some (fraction.map figures, rest) := by
  cases fraction with
  | none =>
    cases rest with
    | nil => rfl
    | cons c rest => simp [fractionText, fractionPart, hpoint c rfl]
  | some cs =>
    obtain ⟨hcs, hne⟩ := hfraction _ rfl
    simp only [fractionText, List.cons_append, fractionPart, digits_append hcs hdigits]
    cases hf : figures cs with
    | nil => exact absurd hf (figures_ne_nil hcs hne)
    | cons d ds => simp [hf]

/-- A sign is told from a digit. -/
theorem minus_append (negative : Bool) {whole rest : List Char} (hwhole : IsWhole whole) :
    minus ((if negative then ['-'] else []) ++ (whole ++ rest)) = (negative, whole ++ rest) := by
  cases negative with
  | true => rfl
  | false =>
    obtain ⟨c, cs, rfl⟩ := List.exists_cons_of_ne_nil hwhole.ne_nil
    have hc : c ≠ '-' := by
      rintro rfl
      cases hwhole.figures _ List.mem_cons_self
    change minus (c :: (cs ++ rest)) = _
    unfold minus
    split
    · rename_i heq
      exact absurd (List.cons.inj heq).1 hc
    · rfl

/-- What follows the digits of a numeral is no digit. -/
theorem endsDigits_append {cs rest : List Char} (hcs : ∀ c ∈ cs.head?, digit? c = none)
    (hrest : EndsDigits rest) : EndsDigits (cs ++ rest) := by
  cases cs with
  | nil => exact hrest
  | cons c cs => exact fun c' hc' => hcs c' hc'

/-- The parts of a numeral are found again, in front of a text that does not go on with it. -/
theorem numeral_append (negative : Bool) {whole : List Char} {fraction : Option (List Char)}
    {exponent : Option (Bool × List Char)} {rest : List Char} (hwhole : IsWhole whole)
    (hfraction : ∀ cs ∈ fraction, (∀ c ∈ cs, IsFigure c) ∧ cs ≠ [])
    (hexponent : ∀ e ∈ exponent, (∀ c ∈ e.2, IsFigure c) ∧ e.2 ≠ []) (hrest : Stops rest) :
    numeral ((if negative then ['-'] else []) ++
      (whole ++ (fractionText fraction ++ (exponentText exponent ++ rest)))) =
      some (⟨negative, figures whole, fraction.map figures,
        exponent.map fun e => (e.1, figures e.2)⟩, rest) := by
  have hmark : EndsDigits (exponentText exponent ++ rest) := by
    refine endsDigits_append (fun c hc => ?_) hrest.endsDigits
    cases exponent with
    | none => cases hc
    | some e =>
      obtain rfl : 'e' = c := Option.some.inj hc
      rfl
  have hpoint : ∀ c ∈ (exponentText exponent ++ rest).head?, c ≠ '.' := by
    intro c hc
    cases exponent with
    | none => exact (hrest c hc).2.1
    | some e =>
      obtain rfl : 'e' = c := Option.some.inj hc
      decide
  have hends : EndsDigits (fractionText fraction ++ (exponentText exponent ++ rest)) := by
    refine endsDigits_append (fun c hc => ?_) hmark
    cases fraction with
    | none => cases hc
    | some cs =>
      obtain rfl : '.' = c := Option.some.inj hc
      rfl
  unfold numeral
  rw [minus_append negative hwhole]
  simp [wholePart_append hwhole hends, fractionPart_append hfraction hmark hpoint,
    exponentPart_append hexponent hrest]

/-- A text is a numeral, in front of whatever does not go on with it. -/
def IsNumeral (cs : List Char) : Prop :=
  ∃ n, ∀ rest, Stops rest → numeral (cs ++ rest) = some (n, rest)

/-- The magnitude of a numeral: digits, and maybe a fraction and an exponent. -/
def IsMagnitude (cs : List Char) : Prop :=
  ∃ whole fraction exponent, IsWhole whole ∧
    (∀ cs ∈ fraction, (∀ c ∈ cs, IsFigure c) ∧ cs ≠ []) ∧
    (∀ e ∈ exponent, (∀ c ∈ e.2, IsFigure c) ∧ e.2 ≠ []) ∧
    cs = whole ++ (fractionText fraction ++ exponentText exponent)

theorem IsMagnitude.isNumeral {cs : List Char} (h : IsMagnitude cs) (negative : Bool) :
    IsNumeral ((if negative then ['-'] else []) ++ cs) := by
  obtain ⟨whole, fraction, exponent, hwhole, hfraction, hexponent, rfl⟩ := h
  refine ⟨⟨negative, figures whole, fraction.map figures,
    exponent.map fun e => (e.1, figures e.2)⟩, fun rest hrest => ?_⟩
  rw [List.append_assoc, List.append_assoc, List.append_assoc]
  exact numeral_append negative hwhole hfraction hexponent hrest

end Json.Token

/-! ### Doubles -/

namespace Double

open Json.Token

theorem scaled_zero {den : Nat} (e : Int) (hden : 0 < den) :
    (scaled 0 den e).1 = 0 ∧ 0 < (scaled 0 den e).2 := by
  unfold scaled
  split
  · exact ⟨rfl, Nat.mul_pos hden (Nat.pow_pos (by decide))⟩
  · exact ⟨Nat.zero_mul _, hden⟩

/-- Zero does not round to a double that is not zero. -/
theorem roundsTo_zero {d : Double} (h : d.mantissa ≠ 0) (k : Int) :
    d.roundsTo 0 k = false := by
  have hlow : 0 < d.interval.1 := by
    unfold interval
    dsimp only
    split <;> omega
  have hquotient : ∀ q : Nat × Nat,
      q = (if 0 ≤ k then (0 * Nat.pow 10 k.toNat, 1) else (0, Nat.pow 10 (-k).toNat)) →
      q.1 = 0 ∧ 0 < q.2 := by
    rintro q rfl
    split
    · exact ⟨Nat.zero_mul _, Nat.one_pos⟩
    · exact ⟨rfl, Nat.pow_pos (by decide)⟩
  obtain ⟨hnum, hden⟩ := hquotient _ rfl
  obtain ⟨hn, hm⟩ := scaled_zero (d.exponent - 2) hden
  have hpos := Nat.mul_pos hlow hm
  unfold roundsTo
  dsimp only
  rw [hnum, hn]
  split <;>
  · rw [Bool.and_eq_false_iff, decide_eq_false_iff_not]
    left
    omega

theorem ne_zero_of_onGrid {d : Double} (h : d.mantissa ≠ 0) {n digits : Nat} {k : Int}
    (hn : d.onGrid n = some (digits, k)) : digits ≠ 0 := by
  -- either neighbour is taken only if it rounds to the double
  obtain ⟨nearer, other, e, hgrid⟩ : ∃ nearer other e, d.onGrid n =
      if d.roundsTo nearer e then some (nearer, e)
      else if d.roundsTo other e then some (other, e) else none := ⟨_, _, _, rfl⟩
  rw [hgrid] at hn
  rintro rfl
  split at hn
  · rename_i hrounds
    obtain ⟨rfl, -⟩ := Prod.mk.inj (Option.some.inj hn)
    rw [roundsTo_zero h] at hrounds
    cases hrounds
  · split at hn
    · rename_i hrounds
      obtain ⟨rfl, -⟩ := Prod.mk.inj (Option.some.inj hn)
      rw [roundsTo_zero h] at hrounds
      cases hrounds
    · cases hn

theorem trimmed_ne_zero {digits : Nat} (h : digits ≠ 0) (k : Int) :
    (trimmed digits k).1 ≠ 0 := by
  fun_induction trimmed digits k with
  | case1 digits k hten ih => exact ih (by omega)
  | case2 digits k hten => exact h

/-- A double that is not zero has a shortest decimal that is not zero. -/
theorem shortest_ne_zero {d : Double} (h : d.isZero = false) : d.shortest.1 ≠ 0 := by
  have hm : d.mantissa ≠ 0 := fun hzero => by
    rw [isZero, hzero] at h
    cases h
  unfold shortest
  cases hgrid : (List.range' 1 17).findSome? d.onGrid with
  | none => exact trimmed_ne_zero hm _
  | some p =>
    obtain ⟨n, -, hn⟩ := List.exists_of_findSome?_eq_some hgrid
    exact trimmed_ne_zero (ne_zero_of_onGrid hm hn) _

theorem isFigure_of_mem_zeros {n : Nat} {c : Char} (h : c ∈ List.replicate n '0') : IsFigure c :=
  List.eq_of_mem_replicate h ▸ rfl

section LayOut

variable {ds : List Char} (hfigures : ∀ c ∈ ds, IsFigure c) (hne : ds ≠ [])
  (hhead : ds.head? ≠ some '0')
include hfigures hne

/-- Zeros stand behind the point. -/
theorem isMagnitude_fraction (n : Nat) :
    IsMagnitude ('0' :: '.' :: List.replicate n '0' ++ ds) := by
  refine ⟨['0'], some (List.replicate n '0' ++ ds), none, isWhole_zero,
    fun _ h => Option.some.inj h ▸ ⟨fun c hc => ?_, ?_⟩, nofun, ?_⟩
  · exact (List.mem_append.1 hc).elim isFigure_of_mem_zeros (hfigures c)
  · exact List.append_ne_nil_of_right_ne_nil _ hne
  · simp [fractionText, exponentText]

include hhead

/-- Zeros for the power of ten stand before the point. -/
theorem isMagnitude_zeros (n : Nat) :
    IsMagnitude (ds ++ List.replicate n '0' ++ ['.', '0']) := by
  refine ⟨ds ++ List.replicate n '0', some ['0'], none, ⟨fun c hc => ?_, ?_, Or.inr ?_⟩,
    fun _ h => Option.some.inj h ▸ ⟨isWhole_zero.figures, isWhole_zero.ne_nil⟩, nofun, rfl⟩
  · exact (List.mem_append.1 hc).elim (hfigures c) isFigure_of_mem_zeros
  · exact List.append_ne_nil_of_left_ne_nil hne _
  · rwa [List.head?_append_of_ne_nil _ hne]

/-- The point stands between the digits. -/
theorem isMagnitude_point {n : Nat} (hpos : 0 < n) (hlt : n < ds.length) :
    IsMagnitude (ds.take n ++ '.' :: ds.drop n) := by
  have htake : ds.take n ≠ [] := fun h =>
    (List.take_eq_nil_iff.1 h).elim (fun hzero => absurd hpos (by omega)) hne
  have hdrop : ds.drop n ≠ [] := fun h => absurd (List.drop_eq_nil_iff.1 h) (by omega)
  refine ⟨ds.take n, some (ds.drop n), none,
    ⟨fun c hc => hfigures c (List.mem_of_mem_take hc), htake, Or.inr ?_⟩,
    fun _ h => Option.some.inj h ▸ ⟨fun c hc => hfigures c (List.mem_of_mem_drop hc), hdrop⟩,
    nofun, ?_⟩
  · rwa [List.head?_take, if_neg (by omega)]
  · simp [fractionText, exponentText]

end LayOut

/-- One digit stands before the point, if there is a point, and an exponent follows. -/
theorem isMagnitude_exponent {d : Char} (fraction : Option (List Char)) (hd : IsFigure d)
    (hzero : d ≠ '0') (hfraction : ∀ cs ∈ fraction, (∀ c ∈ cs, IsFigure c) ∧ cs ≠ [])
    (down : Bool) (e : Nat) :
    IsMagnitude
      (d :: (fractionText fraction ++ exponentText (some (down, Nat.toDigits 10 e)))) := by
  have hfigures : ∀ c ∈ [d], IsFigure c := fun c hc => List.mem_singleton.1 hc ▸ hd
  refine ⟨[d], fraction, some (down, Nat.toDigits 10 e),
    ⟨hfigures, List.cons_ne_nil _ _, Or.inr ?_⟩, hfraction,
    fun _ h => Option.some.inj h ▸ ⟨?_, Nat.toDigits_ne_nil⟩, rfl⟩
  · exact fun h => hzero (Option.some.inj h)
  · exact fun c => isFigure_of_mem_toDigits

theorem isMagnitude_layOut {digits : Nat} (h : digits ≠ 0) (k : Int) :
    IsMagnitude (layOut digits k) := by
  have hfigures : ∀ c ∈ Nat.toDigits 10 digits, IsFigure c := fun c => isFigure_of_mem_toDigits
  have hhead := head?_toDigits h
  have hne : Nat.toDigits 10 digits ≠ [] := Nat.toDigits_ne_nil
  unfold layOut
  generalize Nat.toDigits 10 digits = ds at hfigures hhead hne ⊢
  dsimp only
  split
  · exact isMagnitude_zeros hfigures hne hhead _
  · rename_i hk
    split
    · rename_i hpoint
      simp only [Bool.and_eq_true, decide_eq_true_eq, not_and] at hk hpoint
      exact isMagnitude_point hfigures hne hhead (by omega) (by omega)
    · split
      · exact isMagnitude_fraction hfigures hne _
      · obtain ⟨d, rest, rfl⟩ := List.exists_cons_of_ne_nil hne
        obtain ⟨hd, hrest⟩ := List.forall_mem_cons.1 hfigures
        have hzero : d ≠ '0' := fun hd => hhead (congrArg some hd)
        cases rest with
        | nil =>
          have hexponent := isMagnitude_exponent none hd hzero nofun
            (decide (([d].length : Int) + k - 1 < 0)) (([d].length : Int) + k - 1).natAbs
          simp only [exponentText, decide_eq_true_eq] at hexponent
          exact hexponent
        | cons d' rest =>
          have hexponent := isMagnitude_exponent (some (d' :: rest)) hd hzero
            (fun _ h => Option.some.inj h ▸ ⟨hrest, List.cons_ne_nil d' rest⟩)
            (decide (((d :: d' :: rest).length : Int) + k - 1 < 0))
            (((d :: d' :: rest).length : Int) + k - 1).natAbs
          simp only [exponentText, decide_eq_true_eq] at hexponent
          exact hexponent

/-- The text of a double is a numeral. -/
theorem isNumeral_text (d : Double) : IsNumeral d.text := by
  unfold text
  dsimp only
  split
  · have hzero : IsMagnitude ['0', '.', '0'] :=
      ⟨['0'], some ['0'], none, isWhole_zero, fun _ h => Option.some.inj h ▸
        ⟨isWhole_zero.figures, List.cons_ne_nil _ _⟩, nofun, rfl⟩
    exact hzero.isNumeral _
  · rename_i h
    have hne := shortest_ne_zero (Bool.eq_false_iff.2 h)
    exact (isMagnitude_layOut hne _).isNumeral _

end Double

/-! ### Numbers -/

namespace Json

namespace Numeral

/-- Digits that fit all are joined before any that follow them. -/
theorem gather_append {s m : Nat} {ds : List Nat} (h : gather s ds = (m, [])) (es : List Nat) :
    gather s (ds ++ es) = gather m es := by
  induction ds generalizing s with
  | nil =>
    obtain ⟨rfl, -⟩ := Prod.mk.inj h
    rfl
  | cons d ds ih =>
    simp only [gather, List.cons_append] at h ⊢
    split at h
    · rename_i hlt
      rw [if_pos hlt]
      exact ih h
    · cases (Prod.mk.inj h).2

/-- The digits of a number in range are joined to it. -/
theorem gather_figures {n : Nat} (h : n < significandBound) :
    gather 0 (Token.figures (Nat.toDigits 10 n)) = (n, []) := by
  induction n using Nat.strongRecOn with
  | ind n ih =>
    by_cases hn : n < 10
    · rw [Token.figures_toDigits_of_lt hn]
      simp [gather, h]
    · have hle : 10 ≤ n := Nat.not_lt.1 hn
      have hshorter := ih (n / 10) (by omega) (by omega)
      rw [Token.figures_toDigits_of_le hle, gather_append hshorter]
      simp [gather, Nat.div_add_mod, h]

end Numeral

namespace Number

open Token

/-- The number that the text of a number is read as; none if it is beyond the largest double. -/
def reread (x : Number) : Option Number := (numeral x.text).bind fun p => p.1.number?

theorem wholeText_eq (n : Int) :
    wholeText n = (if n < 0 then ['-'] else []) ++ Nat.toDigits 10 n.natAbs := by
  unfold wholeText
  split <;> rfl

/-- The text of a number is a numeral. -/
theorem isNumeral_text (x : Number) : IsNumeral x.text := by
  cases x with
  | whole n =>
    have hmagnitude : IsMagnitude (Nat.toDigits 10 n.natAbs) :=
      ⟨_, none, none, isWhole_toDigits _, nofun, nofun, (List.append_nil _).symm⟩
    have h := hmagnitude.isNumeral (decide (n < 0))
    simp only [decide_eq_true_eq] at h
    change IsNumeral (wholeText n)
    rwa [wholeText_eq]
  | double d => exact d.isNumeral_text

/-- A number is read back from its text, in front of whatever does not go on with a numeral. -/
theorem numeral_text (x : Number) {rest : List Char} (h : Stops rest) :
    ∃ n, numeral (x.text ++ rest) = some (n, rest) ∧ n.number? = x.reread := by
  obtain ⟨n, hn⟩ := x.isNumeral_text
  refine ⟨n, hn rest h, ?_⟩
  have hnil := hn [] nofun
  rw [List.append_nil] at hnil
  simp [reread, hnil]

theorem numeral_wholeText (n : Int) : numeral (wholeText n) =
    some (⟨decide (n < 0), figures (Nat.toDigits 10 n.natAbs), none, none⟩, []) := by
  have hfraction : ∀ cs ∈ (none : Option (List Char)), (∀ c ∈ cs, IsFigure c) ∧ cs ≠ [] := nofun
  have hexponent : ∀ e ∈ (none : Option (Bool × List Char)),
      (∀ c ∈ e.2, IsFigure c) ∧ e.2 ≠ [] := nofun
  have hstops : Stops [] := nofun
  have h := numeral_append (decide (n < 0)) (isWhole_toDigits n.natAbs) hfraction hexponent hstops
  simpa only [fractionText, exponentText, List.append_nil, decide_eq_true_eq, ← wholeText_eq,
    Option.map_none] using h

/-- A whole number in range is read back as itself. -/
theorem reread_whole {n : Int} (h : (whole n).Fits) : (whole n).reread = some (whole n) := by
  obtain ⟨hlow, hhigh⟩ := h
  have hlow' : -9223372036854775808 ≤ n := hlow
  have hhigh' : n < 18446744073709551616 := hhigh
  have hbound : n.natAbs < Numeral.significandBound := by
    change n.natAbs < 18446744073709551616
    omega
  have hgather := Numeral.gather_figures hbound
  rw [reread, text, numeral_wholeText]
  simp only [Option.bind_some, Numeral.number?, hgather]
  by_cases hneg : n < 0
  · have hzero : n.natAbs ≠ 0 := by omega
    have hle : ¬ Nat.pow 2 63 < n.natAbs := by
      change ¬ 9223372036854775808 < n.natAbs
      omega
    have habs : -(n.natAbs : Int) = n := by omega
    simp only [List.isEmpty_nil, Bool.not_true, Bool.false_eq_true, if_false, hneg, decide_true,
      hzero, hle, decide_false, Bool.or_self, habs]
  · have habs : (n.natAbs : Int) = n := by omega
    simp only [List.isEmpty_nil, Bool.not_true, Bool.false_eq_true, if_false, hneg, decide_false,
      Bool.not_false, if_true, habs]

end Number

end Json

end VideoCall

import Mathlib.Algebra.Order.Ring.Rat
import ReversePolish.Proofs.Literals
import ReversePolish.Proofs.Verdicts
import ReversePolish.Token.Basic

/-! # Literals and numbers

A finite value stands for a rational number (`toRat?`), and its literal determines that number:
equal numbers have one literal, so both zeros are written `0`, different numbers have different
ones, and a literal is read as the number that it was written for (`literal_determines_number`).

A whole number is written as its decimal expansion.  The search for the fewest decimal places ends
where it starts, with no places (`fewestPlaces_of_whole`), because a number of units that make a
whole number of ones rounds to its own rank. -/

namespace ReversePolish.Numeral

/-! ### Decimal expansions -/

/-- The decimal expansion of an integer: its digits without leading zeros, after a minus sign if it
is negative. -/
inductive Expansion : List Char → Int → Prop
  | zero : Expansion ['0'] 0
  | positive {cs : List Char} {n : Nat} : Digits cs n → cs.head? ≠ some '0' → Expansion cs n
  | negative {cs : List Char} {n : Nat} : Digits cs n → cs.head? ≠ some '0' →
      Expansion ('-' :: cs) (-n)

theorem digits_toDigits (n : Nat) : Digits (Nat.toDigits 10 n) n :=
  natural?_eq_some_iff.mp (natural?_toDigits n)

theorem head?_toDigits_ne {n : Nat} (positive : 0 < n) :
    (Nat.toDigits 10 n).head? ≠ some '0' := by
  induction n using Nat.strong_induction_on with
  | h n ih =>
      rw [Nat.toDigits_eq_if (by decide)]
      split
      · next small =>
        have nonzero : ∀ m < 10, 0 < m → Nat.digitChar m ≠ '0' := by decide
        simpa using nonzero n small positive
      · next large =>
        have shorter := ih (n / 10) (by omega) (by omega)
        rwa [List.head?_append_of_ne_nil _ Nat.toDigits_ne_nil]

theorem expansion_integerText (n : Int) : Expansion (integerText n) n := by
  rw [integerText]
  split
  · next negative =>
    have expansion := Expansion.negative (digits_toDigits n.natAbs) (head?_toDigits_ne (by omega))
    have value : -(n.natAbs : Int) = n := by omega
    rwa [value] at expansion
  · next nonnegative =>
    by_cases zero : n = 0
    · subst zero
      exact Expansion.zero
    · have expansion := Expansion.positive (digits_toDigits n.natAbs) (head?_toDigits_ne (by omega))
      have value : (n.natAbs : Int) = n := by omega
      rwa [value] at expansion

namespace Binary64

/-! ### Numbers -/

/-- The number of a rank. -/
def magnitude (rank : Nat) : ℚ := units rank / unitsPerOne

/-- The number that a value stands for, if it is finite. -/
def toRat? : Binary64 → Option ℚ
  | finite negative rank => some (if negative then -magnitude rank else magnitude rank)
  | _ => none

theorem exists_finite_of_toRat? {value : Binary64} {x : ℚ} (h : value.toRat? = some x) :
    ∃ negative rank, value = finite negative rank := by
  cases value with
  | nan => cases h
  | infinity negative => cases h
  | finite negative rank => exact ⟨negative, rank, rfl⟩

theorem unitsPerOne_pos : 0 < unitsPerOne := by
  rw [unitsPerOne_eq]
  exact Nat.two_pow_pos mostPlaces

theorem cast_unitsPerOne_ne : (unitsPerOne : ℚ) ≠ 0 := Nat.cast_ne_zero.mpr unitsPerOne_pos.ne'

theorem units_strictMono : StrictMono units := strictMono_nat_of_lt_succ units_lt_units_succ

theorem magnitude_eq_iff {rank count : Nat} :
    magnitude rank = count ↔ units rank = count * unitsPerOne := by
  rw [magnitude, div_eq_iff cast_unitsPerOne_ne]
  exact_mod_cast Iff.rfl

theorem magnitude_injective : Function.Injective magnitude := by
  intro rank rank' eq
  rw [magnitude, magnitude, div_left_inj' cast_unitsPerOne_ne, Nat.cast_inj] at eq
  exact units_strictMono.injective eq

theorem magnitude_nonneg (rank : Nat) : 0 ≤ magnitude rank := by
  unfold magnitude
  positivity

theorem magnitude_zero : magnitude 0 = 0 := by
  simpa using (@magnitude_eq_iff 0 0).mpr (by decide)

theorem magnitude_eq_zero_iff {rank : Nat} : magnitude rank = 0 ↔ rank = 0 := by
  rw [← magnitude_zero, magnitude_injective.eq_iff]

theorem signed_lt_zero_iff (negative : Bool) (rank : Nat) :
    (if negative then -magnitude rank else magnitude rank) < 0 ↔
      (negative && rank != 0) = true := by
  have nonneg := magnitude_nonneg rank
  cases negative with
  | false => simpa using nonneg
  | true =>
      have zero := @magnitude_eq_zero_iff rank
      simp [nonneg.lt_iff_ne', zero]

/-- A number has one magnitude, and one sign unless it is zero. -/
theorem toRat?_eq_iff {negative negative' : Bool} {rank rank' : Fin finiteCount} :
    (finite negative rank).toRat? = (finite negative' rank').toRat? ↔
      rank = rank' ∧ (negative = negative' ∨ rank.val = 0) := by
  have nonneg := magnitude_nonneg rank
  have nonneg' := magnitude_nonneg rank'
  have same_magnitude (eq : magnitude rank = magnitude rank') : rank = rank' :=
    Fin.ext (magnitude_injective eq)
  -- Numbers that are not negative are opposite only if both are zero.
  have zeros (opposite : magnitude rank = -magnitude rank') : rank = rank' ∧ rank.val = 0 := by
    have zero : magnitude rank = 0 := le_antisymm (opposite ▸ neg_nonpos.mpr nonneg') nonneg
    have zero' : magnitude rank' = 0 := neg_eq_zero.mp (opposite.symm.trans zero)
    exact ⟨same_magnitude (zero.trans zero'.symm), magnitude_eq_zero_iff.mp zero⟩
  simp only [toRat?, Option.some_inj]
  constructor
  · intro eq
    cases negative <;> cases negative'
    · exact ⟨same_magnitude eq, Or.inl rfl⟩
    · exact (zeros eq).imp_right Or.inr
    · exact (zeros (neg_eq_iff_eq_neg.mp eq)).imp_right Or.inr
    · exact ⟨same_magnitude (neg_injective eq), Or.inl rfl⟩
  · rintro ⟨rfl, rfl | zero⟩
    · rfl
    · simp [zero, magnitude_zero]

theorem unsignedZero_eq_iff {negative negative' : Bool} {rank rank' : Fin finiteCount} :
    (finite negative rank).unsignedZero = (finite negative' rank').unsignedZero ↔
      rank = rank' ∧ (negative = negative' ∨ rank.val = 0) := by
  rw [unsignedZero, unsignedZero, finite.injEq]
  constructor
  · rintro ⟨signs, rfl⟩
    refine ⟨rfl, ?_⟩
    by_cases zero : rank.val = 0
    · exact Or.inr zero
    · have nonzero : (rank.val != 0) = true := bne_iff_ne.mpr zero
      rw [nonzero, Bool.and_true, Bool.and_true] at signs
      exact Or.inl signs
  · rintro ⟨rfl, rfl | zero⟩
    · exact ⟨rfl, rfl⟩
    · simp [zero]

theorem eq_iff_unsignedZero_eq {a b : Binary64} {x y : ℚ} (finite_a : a.toRat? = some x)
    (finite_b : b.toRat? = some y) : x = y ↔ a.unsignedZero = b.unsignedZero := by
  obtain ⟨negative, rank, rfl⟩ := exists_finite_of_toRat? finite_a
  obtain ⟨negative', rank', rfl⟩ := exists_finite_of_toRat? finite_b
  rw [← Option.some_inj, ← finite_a, ← finite_b, toRat?_eq_iff, unsignedZero_eq_iff]

theorem toRat?_unsignedZero (value : Binary64) : value.unsignedZero.toRat? = value.toRat? := by
  cases value with
  | nan => rfl
  | infinity negative => rfl
  | finite negative rank =>
      refine toRat?_eq_iff.mpr ⟨rfl, ?_⟩
      by_cases zero : rank.val = 0
      · exact Or.inr zero
      · simp [zero]

theorem literal_eq_iff {a b : Binary64} :
    a.literal = b.literal ↔ a.unsignedZero = b.unsignedZero := by
  constructor
  · intro eq
    have read := parse?_literal a
    rw [eq, parse?_literal b] at read
    exact (Option.some.inj read).symm
  · intro eq
    rw [← literal_unsignedZero a, eq, literal_unsignedZero b]

/-! ### Whole numbers -/

theorem coefficient?_of_whole {rank count : Nat} (whole : units rank = count * unitsPerOne) :
    coefficient? rank 0 = some count := by
  have back : readsBack rank count 0 = true := by
    rw [readsBack_iff, ← whole]
    simpa using nearestRank_units rank Nat.one_pos
  have scaled : units rank * Nat.pow 10 0 = count * unitsPerOne := by
    rw [whole]
    exact Nat.mul_one _
  have below : count * unitsPerOne / unitsPerOne = count := Nat.mul_div_cancel _ unitsPerOne_pos
  unfold coefficient?
  dsimp only
  rw [scaled, below, Nat.mul_mod_left, Nat.mul_zero, back]
  simp [unitsPerOne_pos]

theorem findSome?_range_of_first {β : Type} {n : Nat} {f : Nat → Option β} {b : β}
    (first : f 0 = some b) : (List.range (n + 1)).findSome? f = some b := by
  rw [List.range_succ_eq_map, List.findSome?_cons, first]

/-- The search for the fewest places of a whole number ends where it starts. -/
theorem fewestPlaces_of_whole {rank count : Nat} (whole : units rank = count * unitsPerOne) :
    fewestPlaces rank = (count, 0) := by
  have first : (coefficient? rank 0).map (fun coefficient => (coefficient, 0)) =
      some (count, 0) := by
    rw [coefficient?_of_whole whole, Option.map_some]
  have found : (List.range mostPlaces).findSome? (fun places =>
      (coefficient? rank places).map fun coefficient => (coefficient, places)) =
        some (count, 0) :=
    @findSome?_range_of_first _ 1073 _ _ first
  rw [fewestPlaces, found, Option.getD_some]

theorem positional_zero (coefficient : Nat) :
    positional coefficient 0 = Nat.toDigits 10 coefficient := by
  have some_digits : 0 < (Nat.toDigits 10 coefficient).length :=
    List.length_pos_iff.mpr Nat.toDigits_ne_nil
  have none_added : 0 + 1 - (Nat.toDigits 10 coefficient).length = 0 := by omega
  simp [positional, none_added]

theorem magnitudeText_of_whole {rank count : Nat} (whole : magnitude rank = count) :
    magnitudeText rank = Nat.toDigits 10 count := by
  rw [magnitudeText, fewestPlaces_of_whole (magnitude_eq_iff.mp whole)]
  exact positional_zero count

theorem literal_of_whole {value : Binary64} {n : Int} (whole : value.toRat? = some (n : ℚ)) :
    value.literal.toList = integerText n := by
  obtain ⟨negative, rank, rfl⟩ := exists_finite_of_toRat? whole
  rw [toRat?, Option.some_inj] at whole
  have absolute : magnitude rank = n.natAbs := by
    rw [Nat.cast_natAbs, Int.cast_abs, ← whole]
    cases negative <;> simp [abs_of_nonneg (magnitude_nonneg rank)]
  have sign : n < 0 ↔ (negative && rank.val != 0) = true := by
    rw [← @Int.cast_lt_zero ℚ, ← whole, signed_lt_zero_iff]
  rw [literal_finite, magnitudeText_of_whole absolute, integerText]
  simp only [sign]
  split <;> rfl

/-! ### Literals -/

/-- The literal of a finite value is that of its number alone, is read as its number, and is the
decimal expansion of its number if that is an integer. -/
theorem literal_determines_number {a b : Binary64} {x y : ℚ} (finite_a : a.toRat? = some x)
    (finite_b : b.toRat? = some y) :
    ((Token.ofValue a).literal = (Token.ofValue b).literal ↔ x = y) ∧
      (∃ back, parse? (Token.ofValue a).literal.toList = some back ∧ back.toRat? = some x) ∧
        ∀ n : Int, x = n → Expansion (Token.ofValue a).literal.toList n := by
  refine ⟨?_, ⟨a.unsignedZero, parse?_literal a, ?_⟩, ?_⟩
  · rw [eq_iff_unsignedZero_eq finite_a finite_b]
    exact literal_eq_iff
  · rw [toRat?_unsignedZero, finite_a]
  · rintro n rfl
    change Expansion a.literal.toList n
    rw [literal_of_whole finite_a]
    exact expansion_integerText n

/-- The value of largest magnitude, `2¹⁰²⁴ - 2⁹⁷¹` without its sign. -/
def largest (negative : Bool) : Binary64 := finite negative ⟨finiteCount - 1, by decide⟩

/-- The value one rank below `largest`, `2¹⁰²⁴ - 2⁹⁷²` without its sign. -/
def belowLargest (negative : Bool) : Binary64 := finite negative ⟨finiteCount - 2, by decide⟩

/-- At the end of the range, where neighbours are `2⁹⁷¹` apart, their literals differ and are
written out to the last digit; at zero the sign is left out. -/
theorem literal_determines_number_at_ends :
    (Token.ofValue (largest true)).literal ≠ (Token.ofValue (belowLargest true)).literal ∧
      Expansion (Token.ofValue (largest true)).literal.toList (-(2 ^ 1024 - 2 ^ 971 : Nat)) ∧
        (Token.ofValue (zero true)).literal = (Token.ofValue (zero false)).literal := by
  have whole : units (finiteCount - 1) = (2 ^ 1024 - 2 ^ 971) * unitsPerOne := by decide +kernel
  have whole' : units (finiteCount - 2) = (2 ^ 1024 - 2 ^ 972) * unitsPerOne := by decide +kernel
  have number : (largest true).toRat? = some (-((2 ^ 1024 - 2 ^ 971 : Nat) : ℚ)) :=
    congrArg (fun x => some (-x)) (magnitude_eq_iff.mpr whole)
  have number' : (belowLargest true).toRat? = some (-((2 ^ 1024 - 2 ^ 972 : Nat) : ℚ)) :=
    congrArg (fun x => some (-x)) (magnitude_eq_iff.mpr whole')
  have unsigned : (zero false).toRat? = some 0 := congrArg some magnitude_zero
  have signed : (zero true).toRat? = some (-0) := congrArg (fun x => some (-x)) magnitude_zero
  have different : -((2 ^ 1024 - 2 ^ 971 : Nat) : ℚ) ≠ -((2 ^ 1024 - 2 ^ 972 : Nat) : ℚ) := by
    rw [Ne, neg_inj, Nat.cast_inj]
    decide +kernel
  have at_end := literal_determines_number number number'
  refine ⟨mt at_end.1.mp different, at_end.2.2 _ ?_, ?_⟩
  · rw [Int.cast_neg, Int.cast_natCast]
  · exact (literal_determines_number signed unsigned).1.mpr neg_zero

end Binary64

end ReversePolish.Numeral

import ReversePolish.Proofs.Ranks
import ReversePolish.Text.Blank
import ReversePolish.Text.Splitting

/-! # What is written for a value

A literal is never empty and holds no blanks (`literal_visible`), and it is read as the value that
it was written for, except that the sign of a zero is not written (`parse?_literal`).  The literal
of a finite value is digits with at most one point between them, after a minus sign if the value is
negative. -/

namespace ReversePolish.Numeral

/-! ### Digits around a point -/

theorem toNat_of_isDigit {c : Char} (h : c.isDigit = true) : 48 ≤ c.toNat ∧ c.toNat ≤ 57 := by
  simpa [Char.isDigit, UInt32.le_iff_toNat_le] using h

theorem isBlank_eq_false_of_isDigit {c : Char} (h : c.isDigit = true) : Text.isBlank c = false := by
  have code := toNat_of_isDigit h
  cases blank : Text.isBlank c with
  | false => rfl
  | true =>
      obtain ⟨range, mem, lower, upper⟩ := Text.Ranges.contains_iff.mp blank
      simp only [Text.blankRanges, List.mem_cons, List.not_mem_nil, or_false] at mem
      rcases mem with rfl | rfl | rfl | rfl | rfl | rfl | rfl | rfl | rfl | rfl <;>
        · dsimp only at lower upper
          omega

/-- A point with digits behind it, if there are any. -/
def fractionText (fraction : List Char) : List Char :=
  if fraction = [] then [] else '.' :: fraction

namespace Decimal

theorem parse?_of_digits {whole fraction : List Char} (nonempty : whole ≠ [])
    (digits : ∀ c ∈ whole ++ fraction, c.isDigit = true) :
    parse? (whole ++ fractionText fraction) =
      some ⟨Nat.ofDigitChars 10 (whole ++ fraction) 0, -(fraction.length : Int)⟩ := by
  have whole_digits : ∀ c ∈ whole, c.isDigit = true :=
    fun c mem => digits c (List.mem_append_left _ mem)
  have fraction_digits : ∀ c ∈ fraction, c.isDigit = true :=
    fun c mem => digits c (List.mem_append_right _ mem)
  have stop : ∀ c ∈ (fractionText fraction).head?, c.isDigit = false := by
    intro c mem
    cases fraction with
    | nil => cases mem
    | cons d fraction =>
        obtain rfl : '.' = c := Option.some.inj mem
        rfl
  obtain ⟨take, drop⟩ := Text.takeWhile_dropWhile_append whole_digits stop
  have after :=
    @Text.takeWhile_dropWhile_append _ Char.isDigit fraction [] fraction_digits (by simp)
  rw [List.append_nil] at after
  have some_digits : whole ++ fraction ≠ [] := by simp [nonempty]
  unfold parse?
  dsimp only
  rw [take, drop]
  cases fraction with
  | nil => simp [fractionText, exponent?, nonempty]
  | cons d fraction =>
      have text : fractionText (d :: fraction) = '.' :: d :: fraction := rfl
      rw [text, List.head?_cons, if_pos rfl, if_pos rfl, List.tail_cons, after.1, after.2,
        if_neg some_digits]
      simp [exponent?]

end Decimal

namespace Binary64

theorem exists_digits_of_positional (coefficient places : Nat) :
    ∃ whole fraction, whole ≠ [] ∧ (∀ c ∈ whole ++ fraction, c.isDigit = true) ∧
      fraction.length = places ∧ Nat.ofDigitChars 10 (whole ++ fraction) 0 = coefficient ∧
        positional coefficient places = whole ++ fractionText fraction := by
  -- Zeros stand in front, so that a digit is left before the point.
  let digits := Nat.toDigits 10 coefficient
  let padded := List.replicate (places + 1 - digits.length) '0' ++ digits
  have length_eq : padded.length = places + 1 - digits.length + digits.length := by
    rw [List.length_append, List.length_replicate]
  have all_digits : ∀ c ∈ padded, c.isDigit = true := by
    intro c mem
    rcases List.mem_append.mp mem with zero | digit
    · obtain rfl := List.eq_of_mem_replicate zero
      rfl
    · exact Nat.isDigit_of_mem_toDigits (by decide) (by decide) digit
  have value : Nat.ofDigitChars 10 padded 0 = coefficient := by
    rw [Nat.ofDigitChars_append, Nat.ofDigitChars_replicate_zero, Nat.mul_zero,
      Nat.ofDigitChars_ten_toDigits]
  have rejoined : padded.take (padded.length - places) ++ padded.drop (padded.length - places) =
      padded := List.take_append_drop ..
  refine ⟨padded.take (padded.length - places), padded.drop (padded.length - places), ?_, ?_, ?_,
    ?_, ?_⟩
  · rw [← List.length_pos_iff, List.length_take]
    omega
  · rwa [rejoined]
  · rw [List.length_drop]
    omega
  · rwa [rejoined]
  · change (if places = 0 then padded else _) = _
    split
    · next none_behind =>
      rw [none_behind, Nat.sub_zero, List.take_length, List.drop_length, fractionText, if_pos rfl,
        List.append_nil]
    · next some_behind =>
      have behind : padded.drop (padded.length - places) ≠ [] := by
        rw [← List.length_pos_iff, List.length_drop]
        omega
      rw [fractionText, if_neg behind]

/-- The text of a rank is digits around a point, and is read as the value of the rank. -/
theorem exists_digits_of_magnitudeText (rank : Fin finiteCount) :
    ∃ whole fraction, whole ≠ [] ∧ (∀ c ∈ whole ++ fraction, c.isDigit = true) ∧
      magnitudeText rank = whole ++ fractionText fraction ∧
        ∀ negative, (Decimal.parse? (magnitudeText rank)).map (Decimal.toBinary64 negative) =
          some (finite negative rank) := by
  obtain ⟨⟨coefficient, places⟩, written⟩ : ∃ pair, fewestPlaces rank = pair := ⟨_, rfl⟩
  obtain ⟨whole, fraction, nonempty, digits, length_eq, value, text_eq⟩ :=
    exists_digits_of_positional coefficient places
  have magnitude_eq : magnitudeText rank = whole ++ fractionText fraction := by
    rw [magnitudeText, written]
    exact text_eq
  refine ⟨whole, fraction, nonempty, digits, magnitude_eq, fun negative => ?_⟩
  rw [magnitude_eq, Decimal.parse?_of_digits nonempty digits, value, length_eq, Option.map_some,
    toBinary64_of_readsBack negative (readsBack_of_fewestPlaces written)]

/-! ### The characters of a literal -/

theorem exists_cons_of_magnitudeText (rank : Fin finiteCount) :
    ∃ first rest, magnitudeText rank = first :: rest ∧ first.isDigit = true ∧
      ∀ c ∈ rest, c.isDigit = true ∨ c = '.' := by
  obtain ⟨whole, fraction, nonempty, digits, text_eq, -⟩ := exists_digits_of_magnitudeText rank
  obtain ⟨first, whole, rfl⟩ := List.exists_cons_of_ne_nil nonempty
  refine ⟨first, whole ++ fractionText fraction, text_eq, digits first List.mem_cons_self, ?_⟩
  intro c mem
  rcases List.mem_append.mp mem with mem | mem
  · exact Or.inl (digits c (List.mem_append_left _ (List.mem_cons_of_mem _ mem)))
  · unfold fractionText at mem
    split at mem
    · cases mem
    · rcases List.mem_cons.mp mem with rfl | mem
      · exact Or.inr rfl
      · exact Or.inl (digits c (List.mem_append_right _ mem))

theorem literal_finite (negative : Bool) (rank : Fin finiteCount) :
    (finite negative rank).literal.toList =
      (if negative && rank.val != 0 then ['-'] else []) ++ magnitudeText rank := by
  rw [literal, String.toList_ofList]

/-- A literal of a finite value is digits and points after a digit, or after a minus sign that comes
before a digit. -/
theorem exists_cons_of_literal (negative : Bool) (rank : Fin finiteCount) :
    ∃ first rest, (finite negative rank).literal.toList = first :: rest ∧
      (first.isDigit = true ∨ first = '-' ∧ ∃ c ∈ rest.head?, c.isDigit = true) ∧
        ∀ c ∈ rest, c.isDigit = true ∨ c = '.' := by
  obtain ⟨first, rest, text_eq, digit, others⟩ := exists_cons_of_magnitudeText rank
  rw [literal_finite, text_eq]
  cases negative && rank.val != 0 with
  | true =>
      refine ⟨'-', first :: rest, rfl, Or.inr ⟨rfl, first, rfl, digit⟩, fun c mem => ?_⟩
      rcases List.mem_cons.mp mem with rfl | mem
      · exact Or.inl digit
      · exact others c mem
  | false => exact ⟨first, rest, rfl, Or.inl digit, others⟩

theorem literal_visible (value : Binary64) :
    value.literal ≠ "" ∧ ∀ c ∈ value.literal.toList, Text.isBlank c = false := by
  cases value with
  | nan => exact ⟨by decide, by simp [literal]; decide⟩
  | infinity negative => cases negative <;> exact ⟨by decide, by simp [literal]; decide⟩
  | finite negative rank =>
      obtain ⟨first, rest, text_eq, start, others⟩ := exists_cons_of_literal negative rank
      constructor
      · intro empty
        rw [empty] at text_eq
        cases text_eq
      · intro c mem
        rw [text_eq] at mem
        rcases List.mem_cons.mp mem with rfl | mem
        · rcases start with digit | ⟨rfl, -⟩
          · exact isBlank_eq_false_of_isDigit digit
          · decide
        · rcases others c mem with digit | rfl
          · exact isBlank_eq_false_of_isDigit digit
          · decide

/-! ### Reading a literal -/

/-- The value whose literal is written: a zero has no sign. -/
def unsignedZero : Binary64 → Binary64
  | finite negative rank => finite (negative && rank.val != 0) rank
  | value => value

theorem literal_unsignedZero (value : Binary64) : value.unsignedZero.literal = value.literal := by
  cases value <;> simp [unsignedZero, literal]

theorem same_unsignedZero {value : Binary64} (h : value ≠ nan) :
    value.same value.unsignedZero = true := by
  cases value with
  | nan => exact absurd rfl h
  | infinity negative => simp [unsignedZero, same]
  | finite negative rank => by_cases zero : rank.val = 0 <;> simp [unsignedZero, same, zero]

theorem parseMagnitude?_of_digit {first : Char} (digit : first.isDigit = true) (rest : List Char)
    (negative : Bool) : parseMagnitude? negative (first :: rest) =
      (Decimal.parse? (first :: rest)).map (Decimal.toBinary64 negative) := by
  have lower : first.toLower = first := by
    have code : first.toNat ≤ 57 := (toNat_of_isDigit digit).2
    refine dif_neg ?_
    rintro ⟨upper, -⟩
    have : 65 ≤ first.toNat := upper
    omega
  have no_name {name : String} (letter : ∀ c ∈ name.toList.head?, c.isDigit = false) :
      String.ofList ((first :: rest).map Char.toLower) ≠ name := by
    rintro rfl
    have := letter first (by simp [lower])
    rw [digit] at this
    cases this
  have inf := @no_name "inf" (by simp)
  have infinity := @no_name "infinity" (by simp)
  have nan := @no_name "nan" (by simp)
  unfold parseMagnitude?
  dsimp only
  rw [if_neg (not_or_intro inf infinity), if_neg nan]

/-- What is written for a value is read as that value, but for the sign of a zero. -/
theorem parse?_literal (value : Binary64) :
    parse? value.literal.toList = some value.unsignedZero := by
  cases value with
  | nan => decide
  | infinity negative => cases negative <;> decide
  | finite negative rank =>
      obtain ⟨-, -, -, -, -, read_eq⟩ := exists_digits_of_magnitudeText rank
      obtain ⟨first, rest, text_eq, digit, -⟩ := exists_cons_of_magnitudeText rank
      rw [text_eq] at read_eq
      rw [literal_finite, text_eq, unsignedZero]
      cases negative && rank.val != 0 with
      | true =>
          change parseMagnitude? true (first :: rest) = _
          rw [parseMagnitude?_of_digit digit, read_eq]
      | false =>
          -- A literal without a sign starts with a digit.
          have unsigned : parse? (first :: rest) = parseMagnitude? false (first :: rest) := by
            rw [parse?.eq_def]
            split
            · next eq =>
              obtain ⟨rfl, -⟩ := List.cons.inj eq
              cases digit
            · next eq =>
              obtain ⟨rfl, -⟩ := List.cons.inj eq
              cases digit
            · rfl
          change parse? (first :: rest) = _
          rw [unsigned, parseMagnitude?_of_digit digit, read_eq]

end Binary64

end ReversePolish.Numeral

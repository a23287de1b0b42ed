import Mathlib.Tactic.Positivity
import Mathlib.Tactic.Ring
import ReversePolish.Numeral.Decimal
import ReversePolish.Numeral.Literal

/-! # Ranks and what rounds to them

The value of a rank rounds to that rank, however it is written as a ratio (`nearestRank_units`): the
values of the ranks increase (`units_lt_units_succ`), and the largest rank whose value is not above
that of a rank is the rank itself (`rankBelow_units`).  So the search for the fewest decimal places
ends with a decimal that rounds to the rank (`readsBack_of_fewestPlaces`), because with as many
places as there are halvings in a unit every value is a decimal.

A decimal that rounds to a rank is read as the value of the rank (`toBinary64_of_readsBack`), also
where reading does without the division. -/

namespace ReversePolish.Numeral.Binary64

/-! ### The value of a rank -/

theorem lt_binade_or_exists (rank : Nat) :
    rank < binade ∨
      ∃ doublings place, place < binade ∧ rank = (doublings + 1) * binade + place := by
  by_cases first : rank < binade
  · exact Or.inl first
  · have size : 0 < binade := by decide
    have behind : 0 < rank / binade := Nat.div_pos (Nat.le_of_not_lt first) size
    refine Or.inr ⟨rank / binade - 1, rank % binade, Nat.mod_lt rank size, ?_⟩
    rw [Nat.sub_add_cancel behind, Nat.mul_comm, Nat.div_add_mod]

theorem units_of_lt_binade {rank : Nat} (h : rank < binade) : units rank = rank := by
  rw [units, Nat.div_eq_of_lt h]
  simp

theorem units_of_binade (doublings : Nat) {place : Nat} (h : place < binade) :
    units ((doublings + 1) * binade + place) = (binade + place) * 2 ^ doublings := by
  have number : ((doublings + 1) * binade + place) / binade = doublings + 1 := by
    rw [Nat.mul_comm, Nat.mul_add_div (by decide), Nat.div_eq_of_lt h, Nat.add_zero]
  have rest : (doublings + 1) * binade + place - doublings * binade = binade + place := by
    rw [Nat.succ_mul]
    omega
  rw [units, number, Nat.add_sub_cancel, rest, Nat.shiftLeft_eq]

theorem units_lt_units_succ (rank : Nat) : units rank < units (rank + 1) := by
  rcases lt_binade_or_exists rank with first | ⟨doublings, place, inside, rfl⟩
  · rw [units_of_lt_binade first]
    by_cases last : rank + 1 < binade
    · rw [units_of_lt_binade last]
      exact Nat.lt_succ_self rank
    · have next : rank + 1 = (0 + 1) * binade + 0 := by omega
      rw [next, units_of_binade 0 (by decide)]
      omega
  · rw [units_of_binade doublings inside]
    by_cases last : place + 1 < binade
    · rw [Nat.add_assoc, units_of_binade doublings last]
      exact Nat.mul_lt_mul_of_pos_right (by omega) (Nat.two_pow_pos doublings)
    · have next : (doublings + 1) * binade + place + 1 = (doublings + 1 + 1) * binade + 0 := by
        rw [Nat.succ_mul (doublings + 1)]
        omega
      rw [next, units_of_binade (doublings + 1) (by decide), Nat.pow_succ', ← Nat.mul_assoc]
      exact Nat.mul_lt_mul_of_pos_right (by omega) (Nat.two_pow_pos doublings)

theorem binade_eq : binade = 2 ^ 52 := by decide

/-- The value of a rank is a number of units, and no rank above has at most as many. -/
theorem rankBelow_units (rank : Nat) : rankBelow (units rank) = rank := by
  rcases lt_binade_or_exists rank with first | ⟨doublings, place, inside, rfl⟩
  · have low : rank.log2 - 52 = 0 := by
      by_cases zero : rank = 0
      · simp [zero]
      · have := (Nat.log2_lt zero).mpr (binade_eq ▸ first)
        omega
    rw [units_of_lt_binade first, rankBelow, low]
    simp
  · have nonzero : (binade + place) * 2 ^ doublings ≠ 0 := by
      have : 0 < binade := by decide
      have := Nat.two_pow_pos doublings
      positivity
    have high : ((binade + place) * 2 ^ doublings).log2 = 52 + doublings := by
      rw [Nat.log2_eq_iff nonzero, Nat.add_right_comm, Nat.pow_add, Nat.pow_add]
      constructor
      · exact Nat.mul_le_mul_right _ (by rw [← binade_eq]; omega)
      · exact Nat.mul_lt_mul_of_pos_right (by rw [Nat.pow_succ, ← binade_eq]; omega)
          (Nat.two_pow_pos doublings)
    rw [units_of_binade doublings inside, rankBelow, high, Nat.add_sub_cancel_left,
      Nat.shiftRight_eq_div_pow, Nat.mul_div_cancel _ (Nat.two_pow_pos doublings), Nat.succ_mul]
    omega

/-! ### Rounding -/

theorem nearestRank_of_lt {numerator denominator : Nat}
    (h : 2 * numerator < (units (rankBelow (numerator / denominator)) +
      units (rankBelow (numerator / denominator) + 1)) * denominator) :
    nearestRank numerator denominator = rankBelow (numerator / denominator) := by
  rw [nearestRank]
  exact if_pos h

/-- The value of a rank rounds to that rank. -/
theorem nearestRank_units (rank : Nat) {denominator : Nat} (h : 0 < denominator) :
    nearestRank (units rank * denominator) denominator = rank := by
  have below : rankBelow (units rank * denominator / denominator) = rank := by
    rw [Nat.mul_div_cancel _ h, rankBelow_units]
  rw [nearestRank_of_lt, below]
  rw [below, ← Nat.mul_assoc]
  refine Nat.mul_lt_mul_of_pos_right ?_ h
  have := units_lt_units_succ rank
  omega

theorem nearestRank_eq_zero {numerator denominator : Nat} (h : 2 * numerator < denominator) :
    nearestRank numerator denominator = 0 := by
  have below : rankBelow (numerator / denominator) = 0 := by
    rw [Nat.div_eq_of_lt (by omega)]
    decide
  have one : units 0 + units (0 + 1) = 1 := by decide
  rw [nearestRank_of_lt, below]
  rwa [below, one, Nat.one_mul]

/-! ### The fewest places -/

theorem readsBack_iff {rank coefficient places : Nat} :
    readsBack rank coefficient places = true ↔
      nearestRank (coefficient * unitsPerOne) (10 ^ places) = rank := by
  rw [readsBack, decide_eq_true_iff]
  rfl

theorem unitsPerOne_eq : unitsPerOne = 2 ^ mostPlaces := Nat.one_shiftLeft mostPlaces

theorem two_pow_dvd_ten_pow (n : Nat) : 2 ^ n ∣ 10 ^ n := pow_dvd_pow_of_dvd (Dvd.intro 5 rfl) n

theorem readsBack_exact (rank : Nat) {places : Nat} (h : unitsPerOne ∣ 10 ^ places) :
    readsBack rank (units rank * Nat.pow 10 places / unitsPerOne) places = true := by
  have whole : units rank * Nat.pow 10 places / unitsPerOne * unitsPerOne =
      units rank * 10 ^ places := Nat.div_mul_cancel (h.mul_left (units rank))
  rw [readsBack_iff, whole]
  exact nearestRank_units rank (Nat.pow_pos (by decide))

theorem readsBack_of_coefficient? {rank places coefficient : Nat}
    (h : coefficient? rank places = some coefficient) :
    readsBack rank coefficient places = true := by
  rw [coefficient?] at h
  split at h
  · next both =>
    obtain rfl := Option.some.inj h
    rw [Bool.and_eq_true] at both
    exact both.1
  · split at h
    · next above =>
      obtain rfl := Option.some.inj h
      exact above
    · cases h

/-- The decimal with the fewest places rounds to its rank. -/
theorem readsBack_of_fewestPlaces {rank coefficient places : Nat}
    (h : fewestPlaces rank = (coefficient, places)) : readsBack rank coefficient places = true := by
  rw [fewestPlaces] at h
  cases found : (List.range mostPlaces).findSome? fun places =>
      (coefficient? rank places).map fun coefficient => (coefficient, places) with
  | none =>
      rw [found, Option.getD_none] at h
      obtain ⟨rfl, rfl⟩ := Prod.mk.inj h
      refine readsBack_exact rank ?_
      rw [unitsPerOne_eq]
      exact two_pow_dvd_ten_pow mostPlaces
  | some written =>
      rw [found, Option.getD_some] at h
      obtain ⟨tried, -, given⟩ := List.exists_of_findSome?_eq_some found
      obtain ⟨other, back, pair⟩ := Option.map_eq_some_iff.mp given
      obtain ⟨rfl, rfl⟩ := Prod.mk.inj (pair.trans h)
      exact readsBack_of_coefficient? back

/-! ### Reading a decimal -/

theorem nearestRank_of_log2_le {coefficient places : Nat}
    (h : coefficient.log2 + 1077 ≤ 3 * places) :
    nearestRank (coefficient * unitsPerOne) (10 ^ places) = 0 := by
  refine nearestRank_eq_zero ?_
  have most : mostPlaces = 1074 := rfl
  have size : 0 < unitsPerOne := by
    rw [unitsPerOne_eq]
    exact Nat.two_pow_pos mostPlaces
  have bound := Nat.mul_lt_mul_of_pos_right (@Nat.lt_log2_self coefficient) size
  calc 2 * (coefficient * unitsPerOne)
      < 2 * (2 ^ (coefficient.log2 + 1) * unitsPerOne) :=
        Nat.mul_lt_mul_of_pos_left bound (by decide)
    _ = 2 ^ (coefficient.log2 + 2 + mostPlaces) := by
        rw [unitsPerOne_eq]
        ring
    _ ≤ 2 ^ (3 * places) := Nat.pow_le_pow_right (by decide) (by omega)
    _ = 8 ^ places := by rw [Nat.pow_mul]
    _ ≤ 10 ^ places := Nat.pow_le_pow_left (by decide) places

/-- A decimal that rounds to a rank is read as its value. -/
theorem toBinary64_of_readsBack {rank : Fin finiteCount} {coefficient places : Nat}
    (negative : Bool) (h : readsBack rank coefficient places = true) :
    Decimal.toBinary64 negative ⟨coefficient, -places⟩ = finite negative rank := by
  rw [readsBack_iff] at h
  have zero_of_rank (zero : rank.val = 0) : Binary64.zero negative = finite negative rank := by
    rw [Binary64.zero, finite.injEq]
    exact ⟨rfl, Fin.ext zero.symm⟩
  unfold Decimal.toBinary64
  dsimp only
  -- Reading cuts two cases short, no coefficient and a tiny value, and in both the rank is zero.
  split
  · next none_written =>
    rw [none_written, Nat.zero_mul] at h
    refine zero_of_rank ?_
    rw [← h]
    exact nearestRank_eq_zero (Nat.pow_pos (by decide))
  · split
    · omega
    · split
      · next small =>
        refine zero_of_rank ?_
        rw [← h]
        exact nearestRank_of_log2_le (by omega)
      · have exponent : (-(places : Int)).toNat = 0 := by omega
        have back : (- -(places : Int)).toNat = places := by omega
        rw [exponent, back, ofRatio]
        change ofRank negative (nearestRank (coefficient * 1 * unitsPerOne) (10 ^ places)) = _
        rw [Nat.mul_one, h, ofRank_val]

end ReversePolish.Numeral.Binary64

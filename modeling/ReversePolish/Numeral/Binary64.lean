/-! # Binary64 values

The values of the 64-bit binary interchange format.  A finite value is a sign and a *rank*, its
place among the finite values that are not negative, counted from zero: there are
`finiteCount` of them, and the next rank is that of infinity.

* `units rank` is the value of a rank, in units of `2⁻¹⁰⁷⁴`, the least positive value; so every
  finite value is a natural number of units.
* `ofBits` and `bits` pass between values and words.  The rank is the word without its sign bit,
  and `ofBits_bits` says that no value is lost; the words of not-a-number are all one value.
* `same` compares as numbers do: the two zeros are the same, and not-a-number is not even the same
  as itself.
* `ofRatio` rounds a ratio of natural numbers to the nearest value, and one that lies halfway
  between two values to the one of even rank.  Infinity stands where the next value would be, so a
  ratio from halfway between the largest finite value and `2 ^ 1024` on becomes infinite. -/

namespace ReversePolish.Numeral

/-- How many ranks one doubling of the distance between values takes: `2⁵²`. -/
def binade : Nat := 0x10000000000000

/-- How many finite values there are with one sign; also the rank of infinity. -/
def finiteCount : Nat := 2047 * binade

/-- What the sign of a negative value adds to its word: `2⁶³`. -/
def signBit : Nat := 0x8000000000000000

/-- A value of the binary64 format. -/
inductive Binary64 where
  | nan
  | infinity (negative : Bool)
  | finite (negative : Bool) (rank : Fin finiteCount)
deriving DecidableEq

namespace Binary64

/-- The value of a rank in units of `2⁻¹⁰⁷⁴`.  The ranks of the first two binades are one unit
apart, and from there on the distance doubles with every binade. -/
def units (rank : Nat) : Nat :=
  let doublings := rank / binade - 1
  (rank - doublings * binade) <<< doublings

/-- How many units make one: `2¹⁰⁷⁴`. -/
def unitsPerOne : Nat := 1 <<< 1074

/-- Positive or negative zero. -/
def zero (negative : Bool) : Binary64 := finite negative ⟨0, by decide⟩

/-- The value with a given sign and rank; every rank that is too large is infinity's. -/
def ofRank (negative : Bool) (rank : Nat) : Binary64 :=
  if h : rank < finiteCount then finite negative ⟨rank, h⟩ else infinity negative

/-- The value that a word stands for. -/
def ofBits (word : UInt64) : Binary64 :=
  let rank := word.toNat % signBit
  if finiteCount < rank then nan else ofRank (signBit ≤ word.toNat) rank

/-- The word of a rank and a sign. -/
def wordOf (negative : Bool) (rank : Nat) : UInt64 :=
  UInt64.ofNat (if negative then rank + signBit else rank)

/-- The word of a value; not-a-number has the quiet one with no payload. -/
def bits : Binary64 → UInt64
  | nan => 0x7ff8000000000000
  | infinity negative => wordOf negative finiteCount
  | finite negative rank => wordOf negative rank

/-- Whether two values are the same number. -/
def same : Binary64 → Binary64 → Bool
  | nan, _ => false
  | _, nan => false
  | finite negative rank, finite negative' rank' =>
    rank = rank' && (negative = negative' || rank.val = 0)
  | infinity negative, infinity negative' => negative = negative'
  | _, _ => false

/-! ### Words -/

theorem toNat_wordOf {rank : Nat} (h : rank ≤ finiteCount) (negative : Bool) :
    (wordOf negative rank).toNat = if negative then rank + signBit else rank := by
  rw [wordOf, UInt64.toNat_ofNat', Nat.mod_eq_of_lt]
  simp only [finiteCount, binade] at h
  simp only [signBit]
  split <;> omega

theorem ofBits_wordOf {rank : Nat} (h : rank ≤ finiteCount) (negative : Bool) :
    ofBits (wordOf negative rank) = ofRank negative rank := by
  have small : rank < signBit := Nat.lt_of_le_of_lt h (by decide)
  have low : (if negative then rank + signBit else rank) % signBit = rank := by
    split
    · rw [Nat.add_mod_right, Nat.mod_eq_of_lt small]
    · exact Nat.mod_eq_of_lt small
  have high : decide (signBit ≤ if negative then rank + signBit else rank) = negative := by
    cases negative with
    | false => exact decide_eq_false (Nat.not_le.mpr small)
    | true => exact decide_eq_true (Nat.le_add_left _ _)
  simp only [ofBits, toNat_wordOf h, low, high, Nat.not_lt.mpr h, ↓reduceIte]

theorem ofRank_finiteCount (negative : Bool) : ofRank negative finiteCount = infinity negative := by
  simp [ofRank]

theorem ofRank_val (negative : Bool) (rank : Fin finiteCount) :
    ofRank negative rank = finite negative rank := by
  simp [ofRank]

theorem ofBits_bits (value : Binary64) : ofBits value.bits = value := by
  cases value with
  | nan => decide
  | infinity negative => rw [bits, ofBits_wordOf (Nat.le_refl _), ofRank_finiteCount]
  | finite negative rank => rw [bits, ofBits_wordOf (Nat.le_of_lt rank.isLt), ofRank_val]

/-! ### Rounding -/

/-- The rank of the largest value that is at most a number of units, with the ranks going on past
infinity's as they do before it. -/
def rankBelow (count : Nat) : Nat :=
  let doublings := count.log2 - 52
  doublings * binade + count >>> doublings

/-- The rank of the value nearest to `numerator / denominator` units; a tie goes to the even
rank. -/
def nearestRank (numerator denominator : Nat) : Nat :=
  let below := rankBelow (numerator / denominator)
  let between := (units below + units (below + 1)) * denominator
  if 2 * numerator < between then below
  else if between < 2 * numerator then below + 1
  else below + below % 2

/-- The value nearest to `numerator / denominator`, with a given sign. -/
def ofRatio (negative : Bool) (numerator denominator : Nat) : Binary64 :=
  ofRank negative (nearestRank (numerator * unitsPerOne) denominator)

end Binary64

end ReversePolish.Numeral

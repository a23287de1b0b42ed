/-! # Signed integers in decimal

`integer?` reads an optional sign followed by one or more digits, and `integerText` writes the
shortest such text.  Reading takes back what writing gives (`integer?_integerText`); leading zeros
and a plus sign are read but never written.  `integerWithin?` refuses what lies outside given
bounds. -/

namespace ReversePolish.Numeral

/-- The number that a non-empty list of digits denotes. -/
def natural? (digits : List Char) : Option Nat :=
  if digits ≠ [] ∧ digits.all Char.isDigit then some (Nat.ofDigitChars 10 digits 0) else none

/-- The integer that an optionally signed non-empty list of digits denotes. -/
def integer? : List Char → Option Int
  | '+' :: digits => (natural? digits).map fun n : Nat => (n : Int)
  | '-' :: digits => (natural? digits).map fun n : Nat => -(n : Int)
  | digits => (natural? digits).map fun n : Nat => (n : Int)

/-- An integer in decimal, with a minus sign if it is negative. -/
def integerText (n : Int) : List Char :=
  if n < 0 then '-' :: Nat.toDigits 10 n.natAbs else Nat.toDigits 10 n.natAbs

/-- The integer that a text denotes, if it lies within bounds, which are included. -/
def integerWithin? (least greatest : Int) (cs : List Char) : Option Int :=
  (integer? cs).filter fun n => least ≤ n && n ≤ greatest

/-- The integer that a text denotes, if it fits into 64 bits. -/
def integer64? : List Char → Option Int := integerWithin? (-0x8000000000000000) 0x7fffffffffffffff

/-! ### Reading what was written -/

theorem natural?_toDigits (n : Nat) : natural? (Nat.toDigits 10 n) = some n := by
  have digits : (Nat.toDigits 10 n).all Char.isDigit = true := by
    rw [List.all_eq_true]
    exact fun c mem => Nat.isDigit_of_mem_toDigits (by decide) (by decide) mem
  simp [natural?, Nat.toDigits_ne_nil, digits, Nat.ofDigitChars_ten_toDigits]

theorem integer?_eq_natural? {cs : List Char} (h : ∀ c ∈ cs.head?, c.isDigit = true) :
    integer? cs = (natural? cs).map fun n : Nat => (n : Int) := by
  rw [integer?.eq_def]
  split
  · exact absurd (h '+' rfl) (by decide)
  · exact absurd (h '-' rfl) (by decide)
  · rfl

theorem isDigit_of_mem_head?_toDigits (n : Nat) :
    ∀ c ∈ (Nat.toDigits 10 n).head?, c.isDigit = true :=
  fun _ h => Nat.isDigit_of_mem_toDigits (by decide) (by decide) (List.mem_of_mem_head? h)

theorem integer?_integerText (n : Int) : integer? (integerText n) = some n := by
  rw [integerText]
  split
  · next negative =>
    rw [integer?, natural?_toDigits, Option.map_some, Option.some_inj]
    omega
  · next nonnegative =>
    rw [integer?_eq_natural? (isDigit_of_mem_head?_toDigits _), natural?_toDigits, Option.map_some,
      Option.some_inj]
    omega

theorem integerWithin?_eq_some_iff {least greatest n : Int} {cs : List Char} :
    integerWithin? least greatest cs = some n ↔
      integer? cs = some n ∧ least ≤ n ∧ n ≤ greatest := by
  rw [integerWithin?, Option.filter_eq_some_iff, Bool.and_eq_true, decide_eq_true_iff,
    decide_eq_true_iff]

theorem integerWithin?_integerText {least greatest n : Int} (lower : least ≤ n)
    (upper : n ≤ greatest) : integerWithin? least greatest (integerText n) = some n :=
  integerWithin?_eq_some_iff.mpr ⟨integer?_integerText n, lower, upper⟩

end ReversePolish.Numeral

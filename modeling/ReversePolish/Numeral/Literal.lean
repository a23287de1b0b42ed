import ReversePolish.Numeral.Binary64

/-! # The literal of a value

A finite value is written in positional notation, never with an exponent, and with the fewest
decimal places at which some number reads back as the value.  Of two such numbers the nearer is
written, and of two equally near ones the one further from zero.  A whole number reads back with
no places at all, so it is written out in full; both zeros are written without a sign. -/

namespace ReversePolish.Numeral.Binary64

/-- Whether `coefficient / 10 ^ places` rounds to the value of a rank. -/
def readsBack (rank coefficient places : Nat) : Bool :=
  nearestRank (coefficient * unitsPerOne) (Nat.pow 10 places) = rank

/-- The coefficient of the number with so many decimal places that stands for a rank, if one
reads back.  When any does, so does one of the two neighbours of the value. -/
def coefficient? (rank places : Nat) : Option Nat :=
  let scaled := units rank * Nat.pow 10 places
  let below := scaled / unitsPerOne
  let nearer := 2 * (scaled % unitsPerOne) < unitsPerOne
  if readsBack rank below places && (nearer || !readsBack rank (below + 1) places) then
    some below
  else if readsBack rank (below + 1) places then some (below + 1)
  else none

/-- As many places as there are halvings in a unit, with which every value is reached. -/
def mostPlaces : Nat := 1074

/-- The fewest places at which some number reads back, after its coefficient.  The search ends where
the value itself is reached. -/
def fewestPlaces (rank : Nat) : Nat × Nat :=
  let found := (List.range mostPlaces).findSome? fun places =>
    (coefficient? rank places).map fun coefficient => (coefficient, places)
  found.getD (units rank * Nat.pow 10 mostPlaces / unitsPerOne, mostPlaces)

/-- The digits of `coefficient / 10 ^ places`, with a point in front of the last `places`, and at
least one before it. -/
def positional (coefficient places : Nat) : List Char :=
  let digits := Nat.toDigits 10 coefficient
  let padded := List.replicate (places + 1 - digits.length) '0' ++ digits
  let whole := padded.length - places
  if places = 0 then padded else padded.take whole ++ '.' :: padded.drop whole

/-- The text of a rank. -/
def magnitudeText (rank : Nat) : List Char :=
  let written := fewestPlaces rank
  positional written.1 written.2

/-- The text of a value. -/
def literal : Binary64 → String
  | nan => "NaN"
  | infinity false => "inf"
  | infinity true => "-inf"
  | finite negative rank =>
    String.ofList ((if negative && rank.val != 0 then ['-'] else []) ++ magnitudeText rank)

end ReversePolish.Numeral.Binary64

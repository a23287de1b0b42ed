import ReversePolish.Numeral.Binary64
import ReversePolish.Numeral.Integer

/-! # Numbers in decimal

A decimal is a coefficient times a power of ten.  Its text has digits with or without a point
among, before or after them, and may end in an exponent.  `Binary64.parse?` reads such a text with
an optional sign, or the name of infinity or not-a-number in any case, and rounds it to the
nearest value. -/

namespace ReversePolish.Numeral

/-- The number `coefficient * 10 ^ exponent`. -/
structure Decimal where
  coefficient : Nat
  exponent : Int
deriving DecidableEq

namespace Decimal

/-- The exponent that may follow the digits: none at all, or a mark and a signed integer. -/
def exponent? : List Char → Option Int
  | [] => some 0
  | mark :: cs => if mark = 'e' ∨ mark = 'E' then integer? cs else none

/-- Digits around an optional point, of which there is at least one, and an optional exponent. -/
def parse? (cs : List Char) : Option Decimal :=
  let whole := cs.takeWhile Char.isDigit
  let rest := cs.dropWhile Char.isDigit
  let fraction := if rest.head? = some '.' then rest.tail.takeWhile Char.isDigit else []
  let rest := if rest.head? = some '.' then rest.tail.dropWhile Char.isDigit else rest
  if whole ++ fraction = [] then none
  else (exponent? rest).map fun exponent =>
    { coefficient := Nat.ofDigitChars 10 (whole ++ fraction) 0
      exponent := exponent - fraction.length }

/-- The value nearest to a decimal.  An exponent far out of range settles it without computing the
power of ten: from `10 ^ 310` on everything is infinite, and a coefficient below `2 ^ n` gives less
than half the least value when it is divided by `10 ^ e` with `n + 1076 ≤ 3 * e`. -/
def toBinary64 (negative : Bool) (d : Decimal) : Binary64 :=
  if d.coefficient = 0 then .zero negative
  else if 309 < d.exponent then .infinity negative
  else if d.coefficient.log2 + 1077 ≤ 3 * -d.exponent then .zero negative
  else .ofRatio negative (d.coefficient * Nat.pow 10 d.exponent.toNat)
    (Nat.pow 10 (-d.exponent).toNat)

end Decimal

namespace Binary64

/-- The value of a text without a sign. -/
def parseMagnitude? (negative : Bool) (cs : List Char) : Option Binary64 :=
  let word := String.ofList (cs.map Char.toLower)
  if word = "inf" ∨ word = "infinity" then some (.infinity negative)
  else if word = "nan" then some .nan
  else (Decimal.parse? cs).map (Decimal.toBinary64 negative)

/-- The value of a text. -/
def parse? : List Char → Option Binary64
  | '+' :: cs => parseMagnitude? false cs
  | '-' :: cs => parseMagnitude? true cs
  | cs => parseMagnitude? false cs

end Binary64

end ReversePolish.Numeral

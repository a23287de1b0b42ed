import ReversePolish.Numeral.Integer
import ReversePolish.Symbol.Error
import ReversePolish.Text.Splitting

/-! # Operators

An operator has a name, takes one operand or two, and has a precedence and an associativity, which
together decide what it groups with: `pops t s` says that an operator `t` that comes after `s`
leaves `s` the operand between them.  Its description is `name:arity:associativity:precedence`, with
`l` or `r` for the associativity. -/

namespace ReversePolish

/-- How many operands an operator takes. -/
inductive Operands where
  | one
  | two
deriving DecidableEq

namespace Operands

/-- The number of operands. -/
def count : Operands → Nat
  | one => 1
  | two => 2

/-- One operand or two, if the number is one or two. -/
def ofInt? (n : Int) : Option Operands :=
  if n = 1 then some one else if n = 2 then some two else none

theorem ofInt?_count (operands : Operands) : ofInt? operands.count = some operands := by
  cases operands <;> rfl

end Operands

/-- Which of two operators of equal precedence is applied first. -/
inductive Associativity where
  | left
  | right
deriving DecidableEq

namespace Associativity

/-- The letter that stands for an associativity in a description. -/
def letter : Associativity → Char
  | left => 'l'
  | right => 'r'

/-- The associativity that a text stands for. -/
def ofText? (cs : List Char) : Option Associativity :=
  if cs = ['l'] then some left else if cs = ['r'] then some right else none

theorem ofText?_letter (a : Associativity) : ofText? [a.letter] = some a := by
  cases a <;> rfl

end Associativity

/-- How tightly an operator binds: an integer of 32 bits. -/
structure Precedence where
  value : Int
  inRange : -0x80000000 ≤ value ∧ value ≤ 0x7fffffff
deriving DecidableEq

namespace Precedence

/-- An integer as a precedence, if it fits into 32 bits. -/
def ofInt? (n : Int) : Option Precedence :=
  if h : -0x80000000 ≤ n ∧ n ≤ 0x7fffffff then some ⟨n, h⟩ else none

theorem ofInt?_value (p : Precedence) : ofInt? p.value = some p := by
  rw [ofInt?, dif_pos p.inRange]

end Precedence

/-- An operator with one operand or two. -/
structure OperatorSymbol where
  name : String
  operands : Operands
  associativity : Associativity
  precedence : Precedence
  name_ne : name ≠ ""

namespace OperatorSymbol

theorem eq_iff {o o' : OperatorSymbol} :
    o = o' ↔ o.name = o'.name ∧ o.operands = o'.operands ∧ o.associativity = o'.associativity ∧
      o.precedence = o'.precedence := by
  cases o
  cases o'
  simp

instance : DecidableEq OperatorSymbol := fun _ _ => decidable_of_iff _ eq_iff.symm

/-- An operator, unless its name is empty or it takes neither one operand nor two. -/
def make (name : String) (arity : Int) (associativity : Associativity) (precedence : Precedence) :
    Except SymbolError OperatorSymbol :=
  if h : name = "" then .error .emptyName
  else match Operands.ofInt? arity with
    | some operands => .ok ⟨name, operands, associativity, precedence, h⟩
    | none => .error (.operatorArity name arity)

/-- Whether an operator takes one operand. -/
def isUnary (o : OperatorSymbol) : Bool := o.operands = .one

/-- Whether an operator takes two operands. -/
def isBinary (o : OperatorSymbol) : Bool := o.operands = .two

/-- Whether an operator lets an earlier one of the same precedence be applied first. -/
def isLeftAssociative (o : OperatorSymbol) : Bool := o.associativity = .left

/-- Whether an operator `t` that comes after `s` lets `s` be applied first: `s` has the higher
precedence, or they have the same and `t` is left-associative. -/
def pops (t s : OperatorSymbol) : Bool :=
  t.precedence.value < s.precedence.value ||
    (s.precedence.value = t.precedence.value && t.isLeftAssociative)

/-- The description of an operator, such as `+:2:l:1`. -/
def description (o : OperatorSymbol) : String :=
  String.ofList (o.name.toList ++ ':' :: (Numeral.integerText o.operands.count ++
    ':' :: o.associativity.letter :: ':' :: Numeral.integerText o.precedence.value))

/-- The four parts of a description; the last one may hold colons. -/
def parts? (cs : List Char) : Option (List Char × List Char × List Char × List Char) := do
  let (name, cs) ← Text.splitFirst ':' cs
  let (arity, cs) ← Text.splitFirst ':' cs
  let (associativity, precedence) ← Text.splitFirst ':' cs
  return (name, arity, associativity, precedence)

/-- The operator that a text describes. -/
def ofDescription (text : String) : Except SymbolError OperatorSymbol :=
  match parts? text.toList with
  | none => .error (.malformed text .operatorParts)
  | some (name, arity, associativity, precedence) =>
    match Numeral.integer64? arity with
    | none => .error (.malformed text .arity)
    | some arity =>
      match Associativity.ofText? associativity with
      | none => .error (.malformed text .associativity)
      | some associativity =>
        match (Numeral.integer? precedence).bind Precedence.ofInt? with
        | none => .error (.malformed text .precedence)
        | some precedence => make (String.ofList name) arity associativity precedence

theorem isBinary_eq_not_isUnary (o : OperatorSymbol) : o.isBinary = !o.isUnary := by
  cases h : o.operands <;> simp [isBinary, isUnary, h]

theorem pops_iff {t s : OperatorSymbol} :
    t.pops s = true ↔ t.precedence.value < s.precedence.value ∨
      s.precedence.value = t.precedence.value ∧ t.isLeftAssociative = true := by
  simp [pops]

theorem isUnary_eq_false_of_isBinary {o : OperatorSymbol} (two : o.isBinary = true) :
    o.isUnary = false := by
  rw [isBinary_eq_not_isUnary] at two
  simpa using two

end OperatorSymbol

end ReversePolish

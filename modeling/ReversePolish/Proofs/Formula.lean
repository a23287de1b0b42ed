import ReversePolish.Token.Basic

/-! # Expressions as trees

A `Formula` is what a well-formed list of tokens stands for: numbers and constants, formulas in
brackets, calls with one or more arguments, and operators with their operands.  `listing` is its
tokens in the order in which they are written, with brackets and dividers, and `postorder` those
that are evaluated, each after its operands.

Many trees may have one listing.  `RespectsPrecedence` singles out a tree by what the operators of
neighbouring nodes do to each other: an operator pops that of its left operand and is not popped by
that of its right operand, unless the operand is in brackets. -/

namespace ReversePolish

mutual

/-- An expression as a tree. -/
inductive Formula where
  | number (literal : String) (value : Numeral.Binary64)
  | constant (f : FunctionSymbol) (nullary : f.isConstant = true)
  | bracketed (opening : String) (body : Formula) (closing : String)
  | call (f : FunctionSymbol) (positive : f.isConstant = false) (opening : String)
      (arguments : Arguments) (closing : String)
  | binary (left : Formula) (o : OperatorSymbol) (two : o.isBinary = true) (right : Formula)
  /-- An operator after its only operand. -/
  | trailing (operand : Formula) (o : OperatorSymbol) (one : o.isUnary = true)
  /-- An operator before its only operand. -/
  | leading (o : OperatorSymbol) (one : o.isUnary = true) (operand : Formula)

/-- The arguments of a call, of which there is at least one. -/
inductive Arguments where
  | last (argument : Formula)
  | more (argument : Formula) (divider : String) (rest : Arguments)

end

mutual

/-- The tokens of a formula as it is written. -/
def Formula.listing : Formula → List Token
  | .number literal value => [.number literal value]
  | .constant f _ => [.symbol (.function f)]
  | .bracketed opening body closing =>
    .symbol (.opening opening) :: (body.listing ++ [.symbol (.closing closing)])
  | .call f _ opening arguments closing =>
    .symbol (.function f) :: .symbol (.opening opening) ::
      (arguments.listing ++ [.symbol (.closing closing)])
  | .binary left o _ right => left.listing ++ .symbol (.operator o) :: right.listing
  | .trailing operand o _ => operand.listing ++ [.symbol (.operator o)]
  | .leading o _ operand => .symbol (.operator o) :: operand.listing

/-- The tokens of arguments as they are written. -/
def Arguments.listing : Arguments → List Token
  | .last argument => argument.listing
  | .more argument divider rest => argument.listing ++ .symbol (.divider divider) :: rest.listing

end

mutual

/-- The tokens of a formula as they are evaluated. -/
def Formula.postorder : Formula → List Token
  | .number literal value => [.number literal value]
  | .constant f _ => [.symbol (.function f)]
  | .bracketed _ body _ => body.postorder
  | .call f _ _ arguments _ => arguments.postorder ++ [.symbol (.function f)]
  | .binary left o _ right => left.postorder ++ right.postorder ++ [.symbol (.operator o)]
  | .trailing operand o _ => operand.postorder ++ [.symbol (.operator o)]
  | .leading o _ operand => operand.postorder ++ [.symbol (.operator o)]

/-- The tokens of arguments as they are evaluated. -/
def Arguments.postorder : Arguments → List Token
  | .last argument => argument.postorder
  | .more argument _ rest => argument.postorder ++ rest.postorder

end

/-- The operator on top of a formula that is not in brackets. -/
def Formula.top? : Formula → Option OperatorSymbol
  | .binary _ o _ _ => some o
  | .trailing _ o _ => some o
  | .leading o _ _ => some o
  | _ => none

/-- A whole number as a formula. -/
def Formula.ofNat (n : Nat) : Formula := .number (toString n) (.ofRatio false n 1)

mutual

/-- Whether every operator pops that of its left operand and is not popped by that of its right
operand. -/
def Formula.RespectsPrecedence : Formula → Prop
  | .number _ _ => True
  | .constant _ _ => True
  | .bracketed _ body _ => body.RespectsPrecedence
  | .call _ _ _ arguments _ => arguments.RespectPrecedence
  | .binary left o _ right =>
    left.RespectsPrecedence ∧ right.RespectsPrecedence ∧ (∀ s ∈ left.top?, o.pops s = true) ∧
      ∀ s ∈ right.top?, s.pops o = false
  | .trailing operand o _ => operand.RespectsPrecedence ∧ ∀ s ∈ operand.top?, o.pops s = true
  | .leading o _ operand => operand.RespectsPrecedence ∧ ∀ s ∈ operand.top?, s.pops o = false

/-- Whether every argument respects precedence. -/
def Arguments.RespectPrecedence : Arguments → Prop
  | .last argument => argument.RespectsPrecedence
  | .more argument _ rest => argument.RespectsPrecedence ∧ rest.RespectPrecedence

end

mutual

/-- Whether no operator stands before its only operand. -/
def Formula.OperandFirst : Formula → Prop
  | .number _ _ => True
  | .constant _ _ => True
  | .bracketed _ body _ => body.OperandFirst
  | .call _ _ _ arguments _ => arguments.OperandFirst
  | .binary left _ _ right => left.OperandFirst ∧ right.OperandFirst
  | .trailing operand _ _ => operand.OperandFirst
  | .leading _ _ _ => False

/-- Whether no operator in an argument stands before its only operand. -/
def Arguments.OperandFirst : Arguments → Prop
  | .last argument => argument.OperandFirst
  | .more argument _ rest => argument.OperandFirst ∧ rest.OperandFirst

end

/-! ### Some symbols -/

namespace OperatorSymbol

/-- An operator with a single character as its name. -/
def ofChar (name : Char) (operands : Operands) (associativity : Associativity)
    (precedence : Fin 10) : OperatorSymbol where
  name := String.singleton name
  operands := operands
  associativity := associativity
  precedence := ⟨(precedence : Nat), by omega⟩
  name_ne := by simp

def minus : OperatorSymbol := ofChar '-' .two .left 1

def times : OperatorSymbol := ofChar '*' .two .left 2

def power : OperatorSymbol := ofChar '^' .two .right 3

def factorial : OperatorSymbol := ofChar '!' .one .right 4

end OperatorSymbol

namespace FunctionSymbol

theorem sine_name_ne : "sin" ≠ "" := by
  decide

def sine : FunctionSymbol := ⟨"sin", 1, sine_name_ne⟩

theorem pi_name_ne : "pi" ≠ "" := by
  decide

def pi : FunctionSymbol := ⟨"pi", 0, pi_name_ne⟩

end FunctionSymbol

/-- The standard table with a constant. -/
def SymbolTable.withPi : SymbolTable :=
  { SymbolTable.standard with functions := FunctionSymbol.pi :: SymbolTable.standard.functions }

namespace Formula

def difference (left right : Formula) : Formula := .binary left .minus rfl right

def product (left right : Formula) : Formula := .binary left .times rfl right

def power (left right : Formula) : Formula := .binary left .power rfl right

def factorial (operand : Formula) : Formula := .trailing operand .factorial rfl

/-- The operator of the factorial before its operand. -/
def subfactorial (operand : Formula) : Formula := .leading .factorial rfl operand

def inBrackets (body : Formula) : Formula := .bracketed "(" body ")"

def sine (arguments : Arguments) : Formula := .call .sine rfl "(" arguments ")"

end Formula

end ReversePolish

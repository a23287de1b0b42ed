import ReversePolish.Numeral.Integer
import ReversePolish.Symbol.Error
import ReversePolish.Text.Splitting

/-! # Functions

A function has a name and a number of arguments; one without arguments stands for a constant.  Its
description is `name:arity`.  The name in a description ends at the first colon, so only a name
without a colon can be described, and a described arity is below `2 ^ 63`. -/

namespace ReversePolish

/-- A named function and how many arguments it takes. -/
structure FunctionSymbol where
  name : String
  arity : UInt64
  name_ne : name ≠ ""
deriving DecidableEq

namespace FunctionSymbol

/-- A function, unless its name is empty. -/
def make (name : String) (arity : UInt64) : Except SymbolError FunctionSymbol :=
  if h : name = "" then .error .emptyName else .ok ⟨name, arity, h⟩

/-- Whether the function stands for a constant. -/
def isConstant (f : FunctionSymbol) : Bool := f.arity = 0

/-- The description of a function, such as `sin:1`. -/
def description (f : FunctionSymbol) : String :=
  String.ofList (f.name.toList ++ ':' :: Numeral.integerText f.arity.toNat)

/-- The function that a text describes. -/
def ofDescription (text : String) : Except SymbolError FunctionSymbol :=
  match Text.splitFirst ':' text.toList with
  | none => .error (.malformed text .functionParts)
  | some (name, arity) =>
    match Numeral.integer64? arity with
    | none => .error (.malformed text .arity)
    | some n =>
      if n < 0 then .error (.negativeArity (String.ofList name) n)
      else make (String.ofList name) (UInt64.ofNat n.toNat)

theorem make_eq_ok {name : String} {arity : UInt64} (h : name ≠ "") :
    make name arity = .ok ⟨name, arity, h⟩ := by
  simp [make, h]

theorem make_name_arity (f : FunctionSymbol) : make f.name f.arity = .ok f :=
  make_eq_ok f.name_ne

end FunctionSymbol

end ReversePolish

import ReversePolish.Text.Quoted

/-! # Why a symbol or a symbol table is refused

Each error is a cause; `SymbolError.message` gives its wording. -/

namespace ReversePolish

/-- The first part of a description that does not have the form it should have. -/
inductive DescriptionFlaw where
  | functionParts
  | operatorParts
  | arity
  | associativity
  | precedence
deriving DecidableEq

namespace DescriptionFlaw

/-- What the description should have been like. -/
def message : DescriptionFlaw → String
  | functionParts => "expected name:arity"
  | operatorParts => "expected name:arity:associativity:precedence"
  | arity => "arity is not an integer"
  | associativity => "associativity must be 'l' or 'r'"
  | precedence => "precedence is not an integer"

end DescriptionFlaw

/-- Why a symbol or a symbol table cannot be built. -/
inductive SymbolError where
  /-- An operator takes one operand or two. -/
  | operatorArity (name : String) (arity : Int)
  /-- A function takes no fewer than no arguments. -/
  | negativeArity (name : String) (arity : Int)
  /-- A description that is not of the right form. -/
  | malformed (description : String) (flaw : DescriptionFlaw)
  /-- Nothing can be recognized by an empty literal. -/
  | emptyName
deriving DecidableEq

namespace SymbolError

/-- The error in words. -/
def message : SymbolError → String
  | operatorArity name arity =>
    "operator " ++ Text.quoted name ++ " has arity " ++ toString arity ++
      ", but operators take 1 or 2 arguments"
  | negativeArity name arity =>
    "function " ++ Text.quoted name ++ " has negative arity " ++ toString arity
  | malformed description flaw =>
    "malformed descriptor " ++ Text.quoted description ++ ": " ++ flaw.message
  | emptyName => "symbol names must not be empty"

end SymbolError

end ReversePolish

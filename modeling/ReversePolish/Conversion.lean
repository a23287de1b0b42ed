import ReversePolish.Reordering
import ReversePolish.Token.Adjacency

/-! # Conversion to postfix notation

`parse` brings the tokens of an expression into postfix order and then checks that each may stand
where it stands, so an error of structure is found before a misplaced token.  `convert` writes the
result as text. -/

namespace ReversePolish

/-- Why an expression has no postfix form. -/
inductive ConversionError where
  | reordering (e : ReorderingError)
  | misplaced (p : PlacedToken)
deriving DecidableEq

namespace ConversionError

/-- The error in words. -/
def message : ConversionError → String
  | reordering (.scan e) => e.message
  | reordering (.structural e) => e.message
  | misplaced p =>
    "token " ++ p.token.literal ++ " at position " ++ toString p.index ++ " cannot appear there"

/-- What lies behind an error, if it has a cause of its own. -/
def source? : ConversionError → Option String
  | reordering (.scan e) => e.source?
  | _ => none

/-- The error in words, followed by what lies behind it. -/
def report (e : ConversionError) : String :=
  match e.source? with
  | some source => e.message ++ ": " ++ source
  | none => e.message

end ConversionError

/-- The tokens of an expression in postfix order. -/
def parse (table : SymbolTable) (expression : String) : Except ConversionError (List Token) :=
  match Reordering.ofExpression table expression with
  | .error e => .error (.reordering e)
  | .ok r =>
    match Adjacency.firstMisplaced? r.read.toList with
    | some p => .error (.misplaced p)
    | none => .ok r.postorder

/-- An expression in postfix notation, with a space between its tokens. -/
def convert (table : SymbolTable) (expression : String) : Except ConversionError String :=
  (parse table expression).map Token.joinLiterals

end ReversePolish

import ReversePolish.Numeral.Literal
import ReversePolish.Symbol.Table
import ReversePolish.Text.Blank

/-! # Tokens

A token is a number or a symbol, and `Token.literal` is its text in the output.  A number that is
read gets the literal of its value, so `+5` and `5.0` are both written `5`.  `joinLiterals` puts a
space between the literals of a list of tokens. -/

namespace ReversePolish

/-- A number, with the text that stands for it, or a symbol. -/
inductive Token where
  | number (literal : String) (value : Numeral.Binary64)
  | symbol (s : Symbol)
deriving DecidableEq

namespace Token

/-- A value as a token. -/
def ofValue (value : Numeral.Binary64) : Token := .number value.literal value

/-- The text of a token. -/
def literal : Token → String
  | number literal _ => literal
  | symbol s => s.literal

/-- Whether a token is an operator with two operands. -/
def isBinaryOperator : Token → Bool
  | symbol (.operator o) => o.isBinary
  | _ => false

/-- Whether a token is an opening bracket. -/
def isOpening : Token → Bool
  | symbol (.opening _) => true
  | _ => false

/-- Whether a number may come right after a token; after any other token a sign is a symbol. -/
def acceptsNumber : Token → Bool
  | symbol (.operator _) | symbol (.divider _) | symbol (.opening _) => true
  | _ => false

/-- The literals of tokens with a space between them, without blanks at either end. -/
def joinLiterals (tokens : List Token) : String :=
  Text.trim (String.ofList (List.intercalate [' '] (tokens.map fun token => token.literal.toList)))

end Token

/-- A token and its place among the tokens of an expression, counted from zero. -/
structure PlacedToken where
  token : Token
  index : Nat
deriving DecidableEq

end ReversePolish

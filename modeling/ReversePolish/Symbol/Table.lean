import ReversePolish.Symbol.Function
import ReversePolish.Symbol.Operator

/-! # Symbol tables

An expression is read against a symbol table: the characters that numbers are made of, and the
literals that are functions, operators, brackets and dividers of arguments.  `lookup` finds the
symbol of a literal among the `symbols` in a fixed order, so that of several with one literal the
first is found (`lookup_eq_some`). -/

namespace ReversePolish

/-- What a literal stands for. -/
inductive Symbol where
  | function (f : FunctionSymbol)
  | operator (o : OperatorSymbol)
  | opening (literal : String)
  | closing (literal : String)
  | divider (literal : String)
deriving DecidableEq

namespace Symbol

/-- The text of a symbol. -/
def literal : Symbol → String
  | function f => f.name
  | operator o => o.name
  | opening literal => literal
  | closing literal => literal
  | divider literal => literal

end Symbol

/-- The characters that numbers are made of and the symbols that expressions may use.  No literal
is empty. -/
structure SymbolTable where
  numberChars : List Char
  functions : List FunctionSymbol
  operators : List OperatorSymbol
  dividers : List String
  openings : List String
  closings : List String
  literals_ne : ∀ literal ∈ dividers ++ openings ++ closings, literal ≠ ""
deriving DecidableEq

namespace SymbolTable

/-- A table, unless one of the literals is empty. -/
def make (numberChars : List Char) (functions : List FunctionSymbol)
    (operators : List OperatorSymbol) (dividers openings closings : List String) :
    Except SymbolError SymbolTable :=
  if h : ∀ literal ∈ dividers ++ openings ++ closings, literal ≠ "" then
    .ok ⟨numberChars, functions, operators, dividers, openings, closings, h⟩
  else .error .emptyName

/-- A table whose functions and operators are given by their descriptions. -/
def ofDescriptions (numberChars : String) (functions operators dividers openings closings :
    List String) : Except SymbolError SymbolTable := do
  let functions ← functions.mapM FunctionSymbol.ofDescription
  let operators ← operators.mapM OperatorSymbol.ofDescription
  make numberChars.toList functions operators dividers openings closings

/-- Whether a character may be part of a number. -/
def isNumberChar (table : SymbolTable) (c : Char) : Bool := table.numberChars.contains c

/-- All symbols, in the order in which a literal is looked for. -/
def symbols (table : SymbolTable) : List Symbol :=
  table.functions.map .function ++ table.operators.map .operator ++ table.openings.map .opening ++
    table.closings.map .closing ++ table.dividers.map .divider

/-- The first symbol with a given literal. -/
def lookup (table : SymbolTable) (literal : String) : Option Symbol :=
  table.symbols.find? fun symbol => symbol.literal = literal

/-! ### The standard table -/

/-- The characters of decimal numbers and their signs. -/
def standardNumberChars : String := "0123456789.-+"

/-- Sine and cosine. -/
def standardFunctions : List String := ["sin:1", "cos:1"]

/-- The four operations, the power, and a unary operator that follows its operand. -/
def standardOperators : List String :=
  ["+:2:l:1", "-:2:l:1", "*:2:l:2", "/:2:l:2", "^:2:r:3", "!:1:r:4"]

/-- The comma. -/
def standardDividers : List String := [","]

/-- The opening round bracket. -/
def standardOpenings : List String := ["("]

/-- The closing round bracket. -/
def standardClosings : List String := [")"]

/-- The table that is used when none is given. -/
def standard : SymbolTable where
  numberChars := standardNumberChars.toList
  functions := [⟨"sin", 1, by decide⟩, ⟨"cos", 1, by decide⟩]
  operators :=
    [⟨"+", .two, .left, ⟨1, by decide⟩, by decide⟩, ⟨"-", .two, .left, ⟨1, by decide⟩, by decide⟩,
     ⟨"*", .two, .left, ⟨2, by decide⟩, by decide⟩, ⟨"/", .two, .left, ⟨2, by decide⟩, by decide⟩,
     ⟨"^", .two, .right, ⟨3, by decide⟩, by decide⟩, ⟨"!", .one, .right, ⟨4, by decide⟩, by decide⟩]
  dividers := standardDividers
  openings := standardOpenings
  closings := standardClosings
  literals_ne := by decide

/-- The standard table is the one that its descriptions give. -/
theorem ofDescriptions_standard :
    ofDescriptions standardNumberChars standardFunctions standardOperators standardDividers
      standardOpenings standardClosings = .ok standard :=
  rfl

/-! ### Looking up -/

theorem lookup_eq_some {table : SymbolTable} {literal : String} {symbol : Symbol}
    (h : table.lookup literal = some symbol) : symbol ∈ table.symbols ∧ symbol.literal = literal :=
  ⟨List.mem_of_find?_eq_some h, by simpa using List.find?_some h⟩

end SymbolTable

end ReversePolish

import ReversePolish.Symbol.Table

/-! # The command line

The arguments may give parts of the symbol table, each of which replaces that part of the standard
table, and one expression.  An argument after `--`, or one that names no option, is the
expression; without one an interactive session is wanted. -/

namespace ReversePolish

/-- What the arguments ask for; an empty list is a part that is not given. -/
structure Options where
  numberChars : Option String
  functions : List FunctionSymbol
  operators : List OperatorSymbol
  dividers : List String
  openings : List String
  closings : List String
  expression : Option String

/-- Why arguments are refused. -/
inductive ArgumentError where
  | invalidValue (option value : String) (cause : SymbolError)
  | missingValue (option : String)
  | repeated (option : String)
  | unexpected (argument : String)
deriving DecidableEq

namespace ArgumentError

/-- The error in words. -/
def message : ArgumentError → String
  | invalidValue option value cause =>
    "invalid value " ++ Text.quoted value ++ " for --" ++ option ++ ": " ++ cause.message
  | missingValue option => "--" ++ option ++ " needs a value"
  | repeated option => "--" ++ option ++ " may be given only once"
  | unexpected argument => "unexpected argument " ++ Text.quoted argument

end ArgumentError

namespace Options

/-- Nothing is given. -/
def empty : Options := ⟨none, [], [], [], [], [], none⟩

/-- The options that take a value. -/
inductive Name where
  | numberChars
  | function
  | operator
  | divider
  | opening
  | closing
deriving DecidableEq

namespace Name

/-- The name of an option as it is written, without its dashes. -/
def text : Name → String
  | numberChars => "number-chars"
  | function => "function"
  | operator => "operator"
  | divider => "divider"
  | opening => "opening-bracket"
  | closing => "closing-bracket"

/-- Every option. -/
def all : List Name := [numberChars, function, operator, divider, opening, closing]

/-- The option that an argument names, and the value that follows it after an equals sign. -/
def ofArgument? (argument : String) : Option (Name × Option String) :=
  let cs := argument.toList
  let (name, value) :=
    match Text.splitFirst '=' cs with
    | some (name, value) => (name, some (String.ofList value))
    | none => (cs, none)
  (all.find? fun option => "--".toList ++ option.text.toList = name).map fun option =>
    (option, value)

end Name

/-- The options with one more value. -/
def add (o : Options) (name : Name) (value : String) : Except ArgumentError Options :=
  match name with
  | .numberChars =>
    if o.numberChars.isSome then .error (.repeated name.text)
    else .ok { o with numberChars := some value }
  | .function =>
    match FunctionSymbol.ofDescription value with
    | .ok f => .ok { o with functions := o.functions ++ [f] }
    | .error e => .error (.invalidValue name.text value e)
  | .operator =>
    match OperatorSymbol.ofDescription value with
    | .ok f => .ok { o with operators := o.operators ++ [f] }
    | .error e => .error (.invalidValue name.text value e)
  | .divider => .ok { o with dividers := o.dividers ++ [value] }
  | .opening => .ok { o with openings := o.openings ++ [value] }
  | .closing => .ok { o with closings := o.closings ++ [value] }

/-- The options with an expression. -/
def addExpression (o : Options) (text : String) : Except ArgumentError Options :=
  if o.expression.isSome then .error (.unexpected text)
  else .ok { o with expression := some text }

/-- The options with what a list of arguments adds to them. -/
def addAll (o : Options) : List String → Except ArgumentError Options
  | [] => .ok o
  | argument :: rest =>
    if argument = "--" then rest.foldlM addExpression o
    else match Name.ofArgument? argument with
      | none => do addAll (← o.addExpression argument) rest
      | some (name, some value) => do addAll (← o.add name value) rest
      | some (name, none) =>
        match rest with
        | [] => .error (.missingValue name.text)
        | value :: rest => do addAll (← o.add name value) rest

/-- The options that a list of arguments gives. -/
def ofArguments (arguments : List String) : Except ArgumentError Options := empty.addAll arguments

/-- The given list, or the standard one if nothing is given. -/
def givenOr {α : Type} (given standard : List α) : List α :=
  if given.isEmpty then standard else given

/-- The standard table with every part replaced that is given. -/
def table (o : Options) : Except SymbolError SymbolTable :=
  SymbolTable.make ((o.numberChars.map String.toList).getD SymbolTable.standard.numberChars)
    (givenOr o.functions SymbolTable.standard.functions)
    (givenOr o.operators SymbolTable.standard.operators)
    (givenOr o.dividers SymbolTable.standard.dividers)
    (givenOr o.openings SymbolTable.standard.openings)
    (givenOr o.closings SymbolTable.standard.closings)

/-- What is said when the table cannot be built. -/
def tableMessage (e : SymbolError) : String := "Invalid symbol table: " ++ e.message

end Options

end ReversePolish

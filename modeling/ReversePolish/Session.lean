import ReversePolish.Conversion
import ReversePolish.Text.Lines

/-! # Interactive sessions

A session prompts for a line, answers it, and goes on until it is told to stop, the input ends, or
a line is not UTF-8.  `answer` is what one line leads to, and `transcript` all that is printed for
a stream of bytes. -/

namespace ReversePolish.Session

/-- What is printed before a line is read. -/
def prompt : String := "input> "

/-- What stands before a rendered expression. -/
def outputLabel : String := "output: "

/-- The answer to the command of the same name. -/
def help : String := "possible commands: help, quit"

/-- The postfix form of an expression, or why it has none. -/
def render (table : SymbolTable) (expression : String) : String :=
  match convert table expression with
  | .ok text => text
  | .error e => "Mistake in expression: " ++ e.report

/-- Why a line cannot be read. -/
inductive ReadError where
  | notUtf8
deriving DecidableEq

namespace ReadError

/-- The error in words. -/
def message : ReadError → String
  | notUtf8 => "Failed to read from standard input: stream did not contain valid UTF-8"

end ReadError

/-- What one line leads to. -/
inductive Answer where
  | print (text : String)
  | quit
  | fail (e : ReadError)
deriving DecidableEq

/-- The answer to a line.  Blanks around a command do not matter. -/
def answer (table : SymbolTable) (line : List UInt8) : Answer :=
  match Text.lineText? line with
  | none => .fail .notUtf8
  | some text =>
    if Text.trim text = "help" then .print (help ++ "\n")
    else if Text.trim text = "quit" then .quit
    else .print (outputLabel ++ render table text ++ "\n")

/-- What a session prints, and the error that ends it if one does. -/
structure Transcript where
  output : String
  failure : Option ReadError
deriving DecidableEq

/-- A session over lines. -/
def answerAll (table : SymbolTable) : List (List UInt8) → Transcript
  | [] => ⟨prompt, none⟩
  | line :: rest =>
    match answer table line with
    | .print text =>
      let later := answerAll table rest
      ⟨prompt ++ text ++ later.output, later.failure⟩
    | .quit => ⟨prompt, none⟩
    | .fail e => ⟨prompt, some e⟩

/-- A session over a stream of bytes. -/
def transcript (table : SymbolTable) (input : List UInt8) : Transcript :=
  answerAll table (Text.lines input)

end ReversePolish.Session

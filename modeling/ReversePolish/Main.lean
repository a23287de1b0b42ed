import ReversePolish.CommandLine
import ReversePolish.Session

/-! # The program

Prints the postfix form of the expression on the command line, or holds a session on standard
input. -/

namespace ReversePolish

/-- Reads bytes up to the end of a line or of the input. -/
partial def readLine (input : IO.FS.Stream) (line : ByteArray) : IO ByteArray := do
  let next ← input.read 1
  if next.isEmpty then return line
  let line := line ++ next
  if next.toList = [Text.newline] then return line
  readLine input line

/-- Answers lines until the session ends. -/
partial def converse (table : SymbolTable) (input output : IO.FS.Stream) : IO UInt32 := do
  output.putStr Session.prompt
  output.flush
  let line ← readLine input ByteArray.empty
  if line.isEmpty then return 0
  match Session.answer table line.toList with
  | .print text =>
    output.putStr text
    converse table input output
  | .quit => return 0
  | .fail e =>
    IO.eprintln ("Error: " ++ e.message)
    return 1

/-- Does what the arguments ask for. -/
def runProgram (arguments : List String) : IO UInt32 := do
  match Options.ofArguments arguments with
  | .error e =>
    IO.eprintln ("error: " ++ e.message)
    return 2
  | .ok options =>
    match options.table with
    | .error e =>
      IO.eprintln ("Error: " ++ Options.tableMessage e)
      return 1
    | .ok table =>
      match options.expression with
      | none => converse table (← IO.getStdin) (← IO.getStdout)
      | some expression =>
        match convert table expression with
        | .ok text =>
          IO.println text
          return 0
        | .error _ =>
          IO.eprintln ("Error: " ++ Session.render table expression)
          return 1

end ReversePolish

/-- The command line. -/
def main (arguments : List String) : IO UInt32 := ReversePolish.runProgram arguments

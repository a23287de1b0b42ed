import ReversePolish.Numeral.Decimal
import ReversePolish.Token.Basic

/-! # Reading tokens off an expression

A scanner stands somewhere in an expression and knows the last token that it read.  Whether a
number starts at a character depends on that token: after a complete operand a sign is an operator.
`read` reads one token, and can go on after an error.  `next?` does the same as long as there is
something to read, but not after one of its own errors; `tokens` collects what it gives.

A number is as long as it can be and a symbol as short as it can be.  Every reading that finds
something to read moves on (`length_rest_read_lt`), so collecting ends. -/

namespace ReversePolish

/-- Why no token could be read. -/
inductive ScanError where
  /-- There is nothing left to read. -/
  | endOfExpression (offset : Nat)
  /-- No symbol has a literal that the text up to the next blank starts with. -/
  | unrecognized (symbol : String) (offset : Nat)
  /-- Number characters that do not form a number. -/
  | malformedNumber (literal : String) (offset : Nat)
deriving DecidableEq

namespace ScanError

/-- The error in words. -/
def message : ScanError → String
  | endOfExpression offset =>
    "expected a token at offset " ++ toString offset ++ ", found end of expression"
  | unrecognized symbol offset =>
    "unrecognized symbol " ++ Text.quoted symbol ++ " at offset " ++ toString offset
  | malformedNumber literal offset =>
    "malformed number " ++ Text.quoted literal ++ " at offset " ++ toString offset

/-- What lies behind an error, if it has a cause of its own. -/
def source? : ScanError → Option String
  | malformedNumber _ _ => some "invalid float literal"
  | _ => none

end ScanError

/-! ### Lexemes -/

/-- A piece of text and what it stands for. -/
structure Lexeme where
  text : List Char
  result : Except ScanError Token

namespace Lexeme

/-- Whether a character is a plus or minus sign. -/
def isSign (c : Char) : Bool := c = '+' || c = '-'

/-- Whether a number starts at `first`, which stands before `rest`.  It does so only where an
operand is expected, and a sign only with a number character after it. -/
def startsNumber (table : SymbolTable) (previous : Option Token) (first : Char)
    (rest : List Char) : Bool :=
  table.isNumberChar first && previous.all Token.acceptsNumber &&
    (!isSign first || rest.head?.any table.isNumberChar)

/-- The text of the number that starts at `first`: a sign within it would end it. -/
def numberText (table : SymbolTable) (first : Char) (rest : List Char) : List Char :=
  first :: rest.takeWhile fun c => table.isNumberChar c && !isSign c

/-- The text of the number that starts at `first` and its value. -/
def number (table : SymbolTable) (offset : Nat) (first : Char) (rest : List Char) : Lexeme :=
  let text := numberText table first rest
  match Numeral.Binary64.parse? text with
  | some value => ⟨text, .ok (.ofValue value)⟩
  | none => ⟨text, .error (.malformedNumber (String.ofList text) offset)⟩

/-- The symbol that starts with `text`, which grows into `rest` until there is one. -/
def symbol (table : SymbolTable) (offset : Nat) (text : List Char) : List Char → Lexeme
  | [] =>
    match table.lookup (String.ofList text) with
    | some s => ⟨text, .ok (.symbol s)⟩
    | none => ⟨text, .error (.unrecognized (String.ofList text) offset)⟩
  | c :: rest =>
    match table.lookup (String.ofList text) with
    | some s => ⟨text, .ok (.symbol s)⟩
    | none =>
      if Text.isBlank c then ⟨text, .error (.unrecognized (String.ofList text) offset)⟩
      else symbol table offset (text ++ [c]) rest

/-- The lexeme that starts at `first`, which stands before `rest`. -/
def scan (table : SymbolTable) (previous : Option Token) (offset : Nat) (first : Char)
    (rest : List Char) : Lexeme :=
  if startsNumber table previous first rest then number table offset first rest
  else symbol table offset [first] rest

/-! ### Lexemes are cut off the front -/

theorem text_number (table : SymbolTable) (offset : Nat) (first : Char) (rest : List Char) :
    (number table offset first rest).text = numberText table first rest := by
  rw [number]
  split <;> rfl

theorem symbol_isPrefix (table : SymbolTable) (offset : Nat) (text rest : List Char) :
    ∃ more after, (symbol table offset text rest).text = text ++ more ∧ rest = more ++ after := by
  induction rest generalizing text with
  | nil =>
    refine ⟨[], [], ?_, rfl⟩
    rw [symbol]
    split <;> simp
  | cons c rest ih =>
    rw [symbol]
    split
    · exact ⟨[], c :: rest, by simp, rfl⟩
    · split
      · exact ⟨[], c :: rest, by simp, rfl⟩
      · obtain ⟨more, after, text_eq, rest_eq⟩ := ih (text ++ [c])
        exact ⟨c :: more, after, by simp [text_eq], by simp [rest_eq]⟩

/-- A lexeme is the first character with some of what follows it. -/
theorem text_scan (table : SymbolTable) (previous : Option Token) (offset : Nat) (first : Char)
    (rest : List Char) :
    ∃ more after, (scan table previous offset first rest).text = first :: more ∧
      rest = more ++ after := by
  rw [scan]
  split
  · rw [text_number]
    exact ⟨_, _, rfl, List.takeWhile_append_dropWhile.symm⟩
  · obtain ⟨more, after, text_eq, rest_eq⟩ := symbol_isPrefix table offset [first] rest
    exact ⟨more, after, by simpa using text_eq, rest_eq⟩

end Lexeme

/-! ### Scanners -/

/-- A place in an expression: how many characters lie before it, what is left of the expression,
the last token that was read, and whether `next?` has met an error. -/
structure Scanner where
  cursor : Nat
  rest : List Char
  previous : Option Token
  failed : Bool
deriving DecidableEq

namespace Scanner

/-- The start of an expression. -/
def ofText (expression : String) : Scanner := ⟨0, expression.toList, none, false⟩

/-- The scanner a number of characters further on. -/
def advance (s : Scanner) (count : Nat) : Scanner :=
  { s with cursor := s.cursor + count, rest := s.rest.drop count }

/-- The scanner at the next character that is not blank, or at the end. -/
def skipBlanks (s : Scanner) : Scanner := s.advance (s.rest.takeWhile Text.isBlank).length

/-- Whether there is anything but blanks left, and the scanner past the blanks. -/
def hasNext (s : Scanner) : Bool × Scanner := (!s.skipBlanks.rest.isEmpty, s.skipBlanks)

/-- Reads one token.  After an error the scanner stands behind the text that is at fault. -/
def read (table : SymbolTable) (s : Scanner) : Except ScanError Token × Scanner :=
  let s := s.skipBlanks
  match s.rest with
  | [] => (.error (.endOfExpression s.cursor), s)
  | first :: rest =>
    let lexeme := Lexeme.scan table s.previous s.cursor first rest
    let s := s.advance lexeme.text.length
    match lexeme.result with
    | .ok token => (.ok token, { s with previous := some token })
    | .error e => (.error e, s)

/-- Reads one token if there is one, and nothing once it has met an error. -/
def next? (table : SymbolTable) (s : Scanner) : Option (Except ScanError Token) × Scanner :=
  if s.failed then (none, s)
  else if s.skipBlanks.rest = [] then (none, s.skipBlanks)
  else match s.skipBlanks.read table with
    | (.ok token, s) => (some (.ok token), s)
    | (.error e, s) => (some (.error e), { s with failed := true })

/-! ### Reading moves on -/

theorem rest_skipBlanks (s : Scanner) : s.skipBlanks.rest = s.rest.dropWhile Text.isBlank := by
  let blanks := s.rest.takeWhile Text.isBlank
  calc s.rest.drop blanks.length
      = (blanks ++ s.rest.dropWhile Text.isBlank).drop blanks.length := by
        rw [List.takeWhile_append_dropWhile]
    _ = s.rest.dropWhile Text.isBlank := List.drop_left

theorem length_rest_skipBlanks_le (s : Scanner) : s.skipBlanks.rest.length ≤ s.rest.length := by
  simp [skipBlanks, advance]

theorem skipBlanks_skipBlanks (s : Scanner) : s.skipBlanks.skipBlanks = s.skipBlanks := by
  have none_left : (s.skipBlanks.rest).takeWhile Text.isBlank = [] := by
    rw [rest_skipBlanks]
    cases h : s.rest.dropWhile Text.isBlank with
    | nil => rfl
    | cons c cs =>
      have := List.head?_dropWhile_not Text.isBlank s.rest
      simp_all [List.takeWhile]
  rw [skipBlanks, none_left]
  simp [advance]

theorem read_skipBlanks (table : SymbolTable) (s : Scanner) :
    s.skipBlanks.read table = s.read table := by
  simp only [read, skipBlanks_skipBlanks]

/-- Where there is something to read, reading takes at least one character. -/
theorem length_rest_read_lt (table : SymbolTable) {s : Scanner} (h : s.skipBlanks.rest ≠ []) :
    (s.read table).2.rest.length < s.rest.length := by
  have skipped := length_rest_skipBlanks_le s
  simp only [read]
  split
  · contradiction
  · next first rest eq =>
    obtain ⟨more, -, text_eq, -⟩ :=
      Lexeme.text_scan table s.skipBlanks.previous s.skipBlanks.cursor first rest
    split <;> simp only [advance, text_eq, List.length_drop, List.length_cons] <;>
      · rw [eq, List.length_cons] at skipped
        simp only [eq, List.length_cons]
        omega

theorem length_rest_next_lt {table : SymbolTable} {s after : Scanner}
    {result : Except ScanError Token} (h : s.next? table = (some result, after)) :
    after.rest.length < s.rest.length := by
  rw [next?] at h
  split at h
  · simp at h
  · split at h
    · simp at h
    · next nonempty =>
      have := length_rest_read_lt table nonempty
      rw [read_skipBlanks] at h
      split at h
      all_goals
        next eq =>
          obtain ⟨-, rfl⟩ := Prod.mk.inj h
          rw [eq] at this
          exact this

/-! ### All tokens -/

/-- The tokens that are left, up to the first error. -/
def tokens (table : SymbolTable) (s : Scanner) : List Token × Option ScanError :=
  match _h : s.next? table with
  | (none, _) => ([], none)
  | (some (.error e), _) => ([], some e)
  | (some (.ok token), after) =>
    let later := tokens table after
    (token :: later.1, later.2)
termination_by s.rest.length
decreasing_by exact length_rest_next_lt _h

end Scanner

/-- The tokens of an expression, in the order in which they stand. -/
def tokenize (table : SymbolTable) (expression : String) : Except ScanError (List Token) :=
  match (Scanner.ofText expression).tokens table with
  | (tokens, none) => .ok tokens
  | (_, some e) => .error e

end ReversePolish

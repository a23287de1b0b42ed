/-! # Lines of bytes

`lines` cuts a stream of bytes after each newline, so that no byte is lost (`flatten_lines`) and
a stream that ends in a newline can be cut off from what follows it (`lines_append`).
`lineContent` drops the end of a line and `lineText?` reads the rest as UTF-8. -/

namespace ReversePolish.Text

/-- The byte that ends a line. -/
def newline : UInt8 := 10

/-- The byte that belongs to the end of a line when it stands right before the newline. -/
def carriageReturn : UInt8 := 13

/-- The lines of a stream, each with the newline that ends it; the last may have none. -/
def lines : List UInt8 → List (List UInt8)
  | [] => []
  | b :: bytes =>
    if b = newline then [b] :: lines bytes
    else match lines bytes with
      | [] => [[b]]
      | line :: rest => (b :: line) :: rest

/-- A line without its newline, and without a carriage return right before that. -/
def lineContent (line : List UInt8) : List UInt8 :=
  if line.getLast? = some newline then
    let content := line.dropLast
    if content.getLast? = some carriageReturn then content.dropLast else content
  else line

/-- The text of a line, if its bytes are UTF-8. -/
def lineText? (line : List UInt8) : Option String :=
  String.fromUTF8? ⟨(lineContent line).toArray⟩

theorem flatten_lines (bytes : List UInt8) : (lines bytes).flatten = bytes := by
  induction bytes with
  | nil => rfl
  | cons b bytes ih =>
    rw [lines]
    split
    · simp [ih]
    · split <;> simp_all

theorem lines_append_newline (before after : List UInt8) :
    lines (before ++ newline :: after) = lines (before ++ [newline]) ++ lines after := by
  induction before with
  | nil => simp [lines]
  | cons b before ih =>
    simp only [List.cons_append, lines, ih]
    split
    · rfl
    · have nonempty : lines (before ++ [newline]) ≠ [] := by
        intro h
        have := flatten_lines (before ++ [newline])
        simp [h] at this
      obtain ⟨line, rest, h⟩ := List.exists_cons_of_ne_nil nonempty
      simp [h]

/-- Streams that end in a newline are cut independently of what follows. -/
theorem lines_append {before : List UInt8} (h : before = [] ∨ before.getLast? = some newline)
    (after : List UInt8) : lines (before ++ after) = lines before ++ lines after := by
  rcases h with rfl | h
  · rfl
  · obtain ⟨init, rfl⟩ := List.getLast?_eq_some_iff.mp h
    rw [List.append_assoc, List.singleton_append, lines_append_newline]

end ReversePolish.Text

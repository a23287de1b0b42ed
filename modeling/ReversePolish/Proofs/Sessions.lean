import Mathlib.Data.List.Basic
import ReversePolish.Session

/-! # Sessions line by line

A session over a stream that ends where a line ends, followed by more, is the session over the one
and then the session over the other, as long as no line of the first ends the session.  A line that
does is the last one that is looked at (`transcript_append`).

One line either is answered and leaves no trace (`answerAll_cons_of_goesOn`) or ends the session
(`answerAll_cons_of_ends`).  From this the two cases for lines before others follow by induction,
and `Text.lines_append` carries them over to bytes. -/

namespace ReversePolish

namespace Text

/-- Whether a stream ends where a line ends. -/
def Complete (bytes : List UInt8) : Prop := bytes = [] ∨ bytes.getLast? = some newline

instance (bytes : List UInt8) : Decidable (Complete bytes) :=
  inferInstanceAs (Decidable (_ ∨ _))

theorem lines_singleton {content : List UInt8} (no_newline : newline ∉ content) :
    lines (content ++ [newline]) = [content ++ [newline]] := by
  induction content with
  | nil => rfl
  | cons b content ih =>
      rw [List.mem_cons, not_or] at no_newline
      simp [lines, Ne.symm no_newline.1, ih no_newline.2]

theorem lines_append_line {front content : List UInt8} (complete : Complete front)
    (no_newline : newline ∉ content) (back : List UInt8) :
    lines (front ++ (content ++ newline :: back)) =
      lines front ++ (content ++ [newline]) :: lines back := by
  rw [lines_append complete, lines_append_newline, lines_singleton no_newline]
  rfl

end Text

namespace Session

/-- Whether a line ends a session: it cannot be read, or it is the command to stop. -/
def EndsSession (line : List UInt8) : Prop :=
  Text.lineText? line = none ∨
    ∃ text, Text.lineText? line = some text ∧ Text.trim text = "quit"

theorem endsSession_iff {line : List UInt8} :
    EndsSession line ↔ ∀ text ∈ Text.lineText? line, Text.trim text = "quit" := by
  unfold EndsSession
  cases Text.lineText? line <;> simp

instance (line : List UInt8) : Decidable (EndsSession line) :=
  decidable_of_iff _ endsSession_iff.symm

/-- What an answer prints. -/
def Answer.text : Answer → String
  | print text => text
  | _ => ""

/-- A prompt for each line, and the answer to it. -/
def exchanges (table : SymbolTable) (lines : List (List UInt8)) : String :=
  String.join (lines.map fun line => prompt ++ (answer table line).text)

variable {table : SymbolTable} {line : List UInt8} {front : List (List UInt8)}

/-! ### One line -/

theorem answer_eq_print (goes_on : ¬ EndsSession line) :
    answer table line = .print (answer table line).text := by
  unfold EndsSession at goes_on
  unfold answer
  split
  · next unread => exact absurd (Or.inl unread) goes_on
  · next text read =>
    split
    · rfl
    · split
      · next quit => exact absurd (Or.inr ⟨text, read, quit⟩) goes_on
      · rfl

theorem answer_of_ends (table : SymbolTable) (ends : EndsSession line) :
    answer table line = .quit ∨ answer table line = .fail .notUtf8 := by
  unfold answer
  rcases ends with unread | ⟨text, read, quit⟩
  · simp [unread]
  · simp [read, quit]

theorem answerAll_cons_of_goesOn (goes_on : ¬ EndsSession line) (rest : List (List UInt8)) :
    answerAll table (line :: rest) =
      ⟨prompt ++ (answer table line).text ++ (answerAll table rest).output,
        (answerAll table rest).failure⟩ := by
  rw [answerAll, answer_eq_print goes_on]
  rfl

theorem answerAll_cons_of_ends (ends : EndsSession line) (rest : List (List UInt8)) :
    answerAll table (line :: rest) = answerAll table [line] := by
  rw [answerAll, answerAll]
  rcases answer_of_ends table ends with quit | fail
  · rw [quit]
  · rw [fail]

/-! ### Lines before others -/

theorem answerAll_append (goes_on : ∀ line ∈ front, ¬ EndsSession line)
    (back : List (List UInt8)) :
    answerAll table (front ++ back) =
      ⟨exchanges table front ++ (answerAll table back).output, (answerAll table back).failure⟩ := by
  induction front with
  | nil => simp [exchanges]
  | cons line front ih =>
      have later := ih fun other mem => goes_on other (List.mem_cons_of_mem line mem)
      rw [List.cons_append, answerAll_cons_of_goesOn (goes_on line List.mem_cons_self), later]
      simp [exchanges, String.append_assoc]

theorem answerAll_append_of_ends (ends : EndsSession line) (front back : List (List UInt8)) :
    answerAll table (front ++ line :: back) = answerAll table (front ++ [line]) := by
  induction front with
  | nil => exact answerAll_cons_of_ends ends back
  | cons other front ih =>
      by_cases stops : EndsSession other
      · rw [List.cons_append, List.cons_append, answerAll_cons_of_ends stops,
          answerAll_cons_of_ends stops (front ++ [line])]
      · rw [List.cons_append, List.cons_append, answerAll_cons_of_goesOn stops, ih,
          ← answerAll_cons_of_goesOn stops]

/-! ### Streams -/

/-- A session goes on after a stream of whole lines, none of which ends it, as if it started there.
What comes after a line that ends the session is not looked at. -/
theorem transcript_append (table : SymbolTable) :
    (∀ front back, Text.Complete front → (∀ line ∈ Text.lines front, ¬ EndsSession line) →
      transcript table front = ⟨exchanges table (Text.lines front) ++ prompt, none⟩ ∧
      transcript table (front ++ back) =
        ⟨exchanges table (Text.lines front) ++ (transcript table back).output,
          (transcript table back).failure⟩) ∧
    ∀ front content back, Text.Complete front → Text.newline ∉ content →
      EndsSession (content ++ [Text.newline]) →
        transcript table (front ++ (content ++ Text.newline :: back)) =
          transcript table (front ++ (content ++ [Text.newline])) := by
  constructor
  · intro front back complete goes_on
    unfold transcript
    rw [Text.lines_append complete, answerAll_append goes_on]
    have alone : answerAll table (Text.lines front ++ []) = _ := answerAll_append goes_on []
    rw [List.append_nil] at alone
    exact ⟨alone, rfl⟩
  · intro front content back complete no_newline ends
    unfold transcript
    rw [Text.lines_append_line complete no_newline, Text.lines_append_line complete no_newline]
    exact answerAll_append_of_ends ends (Text.lines front) (Text.lines back)

/-- An expression, with a carriage return at the end of its line, and a command between blanks. -/
def answeredLines : List UInt8 := "3!\r\n help \n".toByteArray.toList

/-- The command to stop between blanks, the last of which is a carriage return. -/
def quitLine : List UInt8 := "\t quit \r".toByteArray.toList

/-- Two lines that are answered come before a misplaced token and a line without an end, and before
a byte that no text holds.  After that byte, and after the command to stop, nothing is answered. -/
theorem transcript_append_commands :
    Text.Complete answeredLines ∧ (∀ line ∈ Text.lines answeredLines, ¬ EndsSession line) ∧
    transcript .standard (answeredLines ++ "1-\n2".toByteArray.toList) =
      ⟨"input> output: 3 !\ninput> possible commands: help, quit\n" ++
        "input> output: Mistake in expression: token - at position 1 cannot appear there\n" ++
          "input> output: 2\ninput> ", none⟩ ∧
    Text.newline ∉ [(0xff : UInt8)] ∧ EndsSession ([0xff] ++ [Text.newline]) ∧
    transcript .standard (answeredLines ++ ([0xff] ++ Text.newline :: "2\n".toByteArray.toList)) =
      ⟨"input> output: 3 !\ninput> possible commands: help, quit\ninput> ", some .notUtf8⟩ ∧
    Text.newline ∉ quitLine ∧ EndsSession (quitLine ++ [Text.newline]) ∧
    transcript .standard ([] ++ (quitLine ++ Text.newline :: [0xff])) = ⟨"input> ", none⟩ := by
  have complete : Text.Complete answeredLines := by decide +kernel
  have goes_on : ∀ line ∈ Text.lines answeredLines, ¬ EndsSession line := by decide +kernel
  have unread : EndsSession ([0xff] ++ [Text.newline]) := by decide +kernel
  have quits : EndsSession (quitLine ++ [Text.newline]) := by decide +kernel
  have no_newline : Text.newline ∉ quitLine := by decide +kernel
  obtain ⟨through, stopped⟩ := transcript_append .standard
  refine ⟨complete, goes_on, ?_, by decide, unread, ?_, no_newline, quits, ?_⟩
  · rw [(through _ _ complete goes_on).2]
    decide +kernel
  · rw [stopped _ _ _ complete (by decide) unread]
    decide +kernel
  · rw [stopped _ _ _ (Or.inl rfl) no_newline quits]
    decide +kernel

end Session

end ReversePolish

import ReversePolish.Proofs.Joining
import ReversePolish.Session

/-! # Answers on one line

An answer has no white space but U+0020, whatever the symbol table and whatever the expression, so
it takes up one line (`answer_on_one_line`).

A message shows a piece of the expression between quotes, where white space is escaped, and numbers
in decimal.  Only the message on a misplaced token shows a literal as it is, and the literal of a
token that has been read holds no blanks (`Spells.visible`). -/

namespace ReversePolish

namespace Text

/-- Whether a text holds no white space but U+0020. -/
def OnOneLine (text : String) : Prop := ∀ c ∈ text.toList, isBlank c = true → c = ' '

instance (text : String) : Decidable (OnOneLine text) :=
  List.decidableBAll (fun c => isBlank c = true → c = ' ') text.toList

theorem OnOneLine.append {text text' : String} (h : OnOneLine text) (h' : OnOneLine text') :
    OnOneLine (text ++ text') := by
  intro c mem blank
  rw [String.toList_append, List.mem_append] at mem
  rcases mem with mem | mem
  · exact h c mem blank
  · exact h' c mem blank

theorem OnOneLine.within {text front back : String} (h : OnOneLine text)
    (around : OnOneLine front ∧ OnOneLine back) : OnOneLine (front ++ text ++ back) :=
  (around.1.append h).append around.2

theorem Visible.onOneLine {text : String} (h : Visible text) : OnOneLine text := by
  intro c mem blank
  rw [h.2 c mem] at blank
  cases blank

theorem onOneLine_quoted (text : String) : OnOneLine (quoted text) := by
  intro c mem blank
  by_contra other
  rw [isBlank_of_mem_quoted mem other] at blank
  cases blank

theorem onOneLine_toString (n : Nat) : OnOneLine (toString n) := by
  intro c mem blank
  have digits : (toString n).toList = Nat.toDigits 10 n := String.toList_ofList
  rw [digits] at mem
  have digit := Nat.isDigit_of_mem_toDigits (by decide) (by decide) mem
  rw [Numeral.isBlank_eq_false_of_isDigit digit] at blank
  cases blank

theorem onOneLine_intercalate {words : List String} (h : ∀ word ∈ words, OnOneLine word) :
    OnOneLine (" ".intercalate words) := by
  intro c mem blank
  rw [String.toList_intercalate] at mem
  induction words with
  | nil => simp at mem
  | cons word words ih =>
      have here := h word List.mem_cons_self
      have later := ih fun other inside => h other (List.mem_cons_of_mem word inside)
      cases words with
      | nil =>
          rw [List.map_singleton, List.intercalate_singleton] at mem
          exact here c mem blank
      | cons next words =>
          rw [List.map_cons, List.map_cons, List.intercalate_cons_cons, ← List.map_cons,
            List.append_assoc, List.mem_append, List.mem_append] at mem
          rcases mem with mem | mem | mem
          · exact here c mem blank
          · simpa using mem
          · exact later mem

end Text

/-! ### Messages -/

theorem ScanError.message_onOneLine (e : ScanError) : Text.OnOneLine e.message := by
  cases e with
  | endOfExpression offset =>
      exact (Text.onOneLine_toString offset).within (by decide)
  | unrecognized symbol offset =>
      have shown := Text.onOneLine_quoted symbol
      exact (shown.within (by decide)).append (Text.onOneLine_toString offset)
  | malformedNumber literal offset =>
      have shown := Text.onOneLine_quoted literal
      exact (shown.within (by decide)).append (Text.onOneLine_toString offset)

theorem StructureError.message_onOneLine (e : StructureError) : Text.OnOneLine e.message := by
  cases e with
  | strayDivider index => exact (Text.onOneLine_toString index).within (by decide)
  | unmatchedClosing index => exact (Text.onOneLine_toString index).within (by decide)
  | unclosedOpening =>
      show Text.OnOneLine "more opening brackets than closing ones"
      decide

namespace ConversionError

theorem message_onOneLine {e : ConversionError}
    (literal : ∀ p, e = .misplaced p → Text.OnOneLine p.token.literal) :
    Text.OnOneLine e.message := by
  rcases e with (e | e) | p
  · exact e.message_onOneLine
  · exact e.message_onOneLine
  · have shown := literal p rfl
    have place := Text.onOneLine_toString p.index
    exact ((shown.within (by decide)).append place).append (by decide)

theorem source_onOneLine {e : ConversionError} {source : String} (h : e.source? = some source) :
    Text.OnOneLine source := by
  unfold source? ScanError.source? at h
  split at h
  · split at h
    · obtain rfl := Option.some.inj h
      decide
    · cases h
  · cases h

theorem report_onOneLine {e : ConversionError}
    (literal : ∀ p, e = .misplaced p → Text.OnOneLine p.token.literal) :
    Text.OnOneLine e.report := by
  unfold report
  split
  · next source h =>
    exact ((message_onOneLine literal).append (by decide)).append (source_onOneLine h)
  · exact message_onOneLine literal

end ConversionError

/-! ### Misplaced tokens -/

namespace Adjacency

theorem token_mem_of_firstMisfit? {index : Nat} {tokens : List Token} {p : PlacedToken}
    (h : firstMisfit? index tokens = some p) : p.token ∈ tokens := by
  fun_induction firstMisfit? index tokens with
  | case1 index previous current next rest fit ih => exact List.mem_cons_of_mem previous (ih h)
  | case2 index previous current next rest unfit =>
      obtain rfl := Option.some.inj h
      simp
  | case3 => cases h

theorem token_mem_of_firstMisplaced? {tokens : List Token} {p : PlacedToken}
    (h : firstMisplaced? tokens = some p) : p.token ∈ tokens := by
  unfold firstMisplaced? at h
  rcases Option.or_eq_some_iff.mp h with inside | ⟨-, ends⟩
  · exact token_mem_of_firstMisfit? inside
  · rcases Option.or_eq_some_iff.mp ends with first | ⟨-, last⟩
    · obtain ⟨a, refused, rfl⟩ := Option.map_eq_some_iff.mp first
      exact List.mem_of_mem_head? (Option.filter_eq_some_iff.mp refused).1
    · obtain ⟨a, refused, rfl⟩ := Option.map_eq_some_iff.mp last
      exact List.mem_of_getLast? (Option.filter_eq_some_iff.mp refused).1

end Adjacency

variable {table : SymbolTable} {expression : String}

theorem literal_visible_of_misplaced {p : PlacedToken}
    (h : parse table expression = .error (.misplaced p)) : Text.Visible p.token.literal := by
  obtain ⟨tokens, tokenized, misplaced⟩ := exists_of_parse_misplaced h
  exact (spells_of_tokenize tokenized).visible _ (Adjacency.token_mem_of_firstMisplaced? misplaced)

/-! ### Answers -/

namespace Session

theorem render_onOneLine (table : SymbolTable) (expression : String) :
    Text.OnOneLine (render table expression) := by
  unfold render convert
  cases parsed : parse table expression with
  | ok output =>
      show Text.OnOneLine (Token.joinLiterals output)
      have visible := visible_of_parse parsed
      rw [joinLiterals_eq visible]
      exact Text.onOneLine_intercalate (by simpa using fun a mem => (visible a mem).onOneLine)
  | error e =>
      show Text.OnOneLine ("Mistake in expression: " ++ e.report)
      have literal : ∀ p, e = .misplaced p → Text.OnOneLine p.token.literal := by
        rintro p rfl
        exact (literal_visible_of_misplaced parsed).onOneLine
      exact Text.OnOneLine.append (by decide) (ConversionError.report_onOneLine literal)

/-- Whatever the table and whatever the expression, it is answered on one line, by its postfix form
or by a message.  So a line of a session that is no command is answered by one line. -/
theorem answer_on_one_line (table : SymbolTable) (expression : String) :
    (∀ c ∈ (render table expression).toList, Text.isBlank c = true → c = ' ') ∧
    ∀ line, Text.lineText? line = some expression → Text.trim expression ≠ "help" →
      Text.trim expression ≠ "quit" →
        ∃ shown, answer table line = .print (shown ++ "\n") ∧
          shown = outputLabel ++ render table expression ∧
            ∀ c ∈ shown.toList, Text.isBlank c = true → c = ' ' := by
  have rendered := render_onOneLine table expression
  have labelled : Text.OnOneLine (outputLabel ++ render table expression) :=
    Text.OnOneLine.append (by decide) rendered
  refine ⟨rendered, fun line read no_help no_quit => ⟨_, ?_, rfl, labelled⟩⟩
  unfold answer
  rw [read]
  dsimp only
  rw [if_neg no_help, if_neg no_quit]

/-- The standard table with a tab, a carriage return and a line separator as number characters. -/
def blankNumbers : SymbolTable :=
  { SymbolTable.standard with
    numberChars := '\t' :: '\r' :: '\u2028' :: SymbolTable.standard.numberChars }

/-- The characters of a number that cannot be read, with blanks of three kinds. -/
def blankNumber : String := "7\t\u20288\r"

/-- The blanks in a number that cannot be read are escaped. -/
theorem answer_on_one_line_blanks :
    Text.lineText? (blankNumber ++ "\r\n").toByteArray.toList = some blankNumber ∧
    Text.trim blankNumber ≠ "help" ∧ Text.trim blankNumber ≠ "quit" ∧
    render blankNumbers blankNumber = "Mistake in expression: malformed number " ++
      "\"7\\t\\u\x7b2028\x7d8\\r\" at offset 0: invalid float literal" ∧
    ∃ shown,
      answer blankNumbers (blankNumber ++ "\r\n").toByteArray.toList = .print (shown ++ "\n") ∧
      shown = outputLabel ++ render blankNumbers blankNumber ∧
        ∀ c ∈ shown.toList, Text.isBlank c = true → c = ' ' := by
  have read : Text.lineText? (blankNumber ++ "\r\n").toByteArray.toList = some blankNumber := by
    decide +kernel
  have no_help : Text.trim blankNumber ≠ "help" := by decide +kernel
  have no_quit : Text.trim blankNumber ≠ "quit" := by decide +kernel
  have rendered : render blankNumbers blankNumber = "Mistake in expression: malformed number " ++
      "\"7\\t\\u\x7b2028\x7d8\\r\" at offset 0: invalid float literal" := by
    decide +kernel
  exact ⟨read, no_help, no_quit, rendered,
    (answer_on_one_line blankNumbers blankNumber).2 _ read no_help no_quit⟩

end Session

end ReversePolish

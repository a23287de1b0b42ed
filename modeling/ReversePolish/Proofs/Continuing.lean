import ReversePolish.Proofs.Receiving

/-! # Expressions that go on

An error of reading is met at the text that is at fault, and a stray divider or closing bracket at
its place.  What is written later, after a space, cannot take such an error back or put another one
before it (`parse_continued`).  An open bracket and a misplaced token are another matter, because
they are found when all has been read.

Where a blank is no number character, it ends a number and a symbol as the end of the text does
(`Lexeme.scan_append`).  So a scanner with more to read after a blank reads the same tokens and
meets the same error (`Scanner.Reads.extend`), and the tokens are received one after another up to
the first that is refused, whatever tokens follow. -/

namespace ReversePolish

/-- The errors that are met while an expression is read, at the place that is at fault. -/
inductive ConversionError.IsFinal : ConversionError → Prop
  | unrecognized {symbol offset} : IsFinal (.reordering (.scan (.unrecognized symbol offset)))
  | malformedNumber {literal offset} :
      IsFinal (.reordering (.scan (.malformedNumber literal offset)))
  | strayDivider {index} : IsFinal (.reordering (.structural (.strayDivider index)))
  | unmatchedClosing {index} : IsFinal (.reordering (.structural (.unmatchedClosing index)))

variable {table : SymbolTable}

section blank

variable {blank : Char} (is_blank : Text.isBlank blank = true)
  (apart : table.isNumberChar blank = false) {back : List Char}

/-! ### Lexemes before a blank -/

namespace Lexeme

variable {previous : Option Token} {offset : Nat} {first : Char}

include apart in
theorem startsNumber_append (rest : List Char) :
    startsNumber table previous first (rest ++ blank :: back) =
      startsNumber table previous first rest := by
  cases rest with
  | nil => simp [startsNumber, apart]
  | cons c rest => rfl

include apart in
theorem number_append (rest : List Char) :
    number table offset first (rest ++ blank :: back) = number table offset first rest := by
  have text_eq : numberText table first (rest ++ blank :: back) =
      numberText table first rest := by
    unfold numberText
    rw [List.takeWhile_append]
    split
    · next whole => simp [apart, (List.takeWhile_prefix _).eq_of_length whole]
    · rfl
  unfold number
  rw [text_eq]

include is_blank in
theorem symbol_append (text rest : List Char) :
    symbol table offset text (rest ++ blank :: back) = symbol table offset text rest := by
  induction rest generalizing text with
  | nil => rw [List.nil_append, symbol, symbol, if_pos is_blank]
  | cons c rest ih => rw [List.cons_append, symbol, symbol, ih]

include is_blank apart in
theorem scan_append (rest : List Char) :
    scan table previous offset first (rest ++ blank :: back) =
      scan table previous offset first rest := by
  rw [scan, scan, startsNumber_append apart, number_append apart, symbol_append is_blank]

end Lexeme

/-! ### Scanners with more to read -/

namespace Scanner

variable {s : Scanner}

/-- The scanner with more to read after what is left. -/
def extend (s : Scanner) (back : List Char) : Scanner := { s with rest := s.rest ++ back }

theorem advance_extend {count : Nat} (inside : count ≤ s.rest.length) (back : List Char) :
    (s.extend back).advance count = (s.advance count).extend back := by
  unfold advance extend
  dsimp only
  rw [List.drop_append_of_le_length inside]

theorem skipBlanks_extend (more : s.skipBlanks.rest ≠ []) (back : List Char) :
    (s.extend back).skipBlanks = s.skipBlanks.extend back := by
  have some_left : (s.rest.takeWhile Text.isBlank).length ≠ s.rest.length := by
    intro whole
    apply more
    unfold skipBlanks advance
    dsimp only
    rw [whole, List.drop_length]
  have blanks_eq : (s.rest ++ back).takeWhile Text.isBlank = s.rest.takeWhile Text.isBlank := by
    rw [List.takeWhile_append, if_neg some_left]
  have inside : (s.rest.takeWhile Text.isBlank).length ≤ s.rest.length :=
    (List.takeWhile_sublist _).length_le
  calc (s.extend back).skipBlanks
      = (s.extend back).advance ((s.rest ++ back).takeWhile Text.isBlank).length := rfl
    _ = (s.extend back).advance (s.rest.takeWhile Text.isBlank).length := by rw [blanks_eq]
    _ = s.skipBlanks.extend back := advance_extend inside back

include is_blank apart in
/-- What is read before a blank does not depend on what comes after it. -/
theorem read_extend (more : s.skipBlanks.rest ≠ []) :
    (s.extend (blank :: back)).read table =
      ((s.read table).1, (s.read table).2.extend (blank :: back)) := by
  obtain ⟨first, rest, left⟩ := List.exists_cons_of_ne_nil more
  have left_extend : (s.skipBlanks.extend (blank :: back)).rest =
      first :: (rest ++ blank :: back) := by
    unfold extend
    dsimp only
    rw [left, List.cons_append]
  -- The token ends inside the old text, and cutting it off there leaves the new text behind it.
  obtain ⟨after, behind, text_eq, rfl⟩ :=
    Lexeme.text_scan table s.skipBlanks.previous s.skipBlanks.cursor first rest
  have inside : (first :: after).length ≤ s.skipBlanks.rest.length := by
    rw [left]
    simp
  have scanned : Lexeme.scan table (s.skipBlanks.extend (blank :: back)).previous
      (s.skipBlanks.extend (blank :: back)).cursor first (after ++ behind ++ blank :: back) =
        Lexeme.scan table s.skipBlanks.previous s.skipBlanks.cursor first (after ++ behind) :=
    Lexeme.scan_append is_blank apart (after ++ behind)
  unfold read
  dsimp only
  rw [skipBlanks_extend more, left_extend, left]
  dsimp only
  rw [scanned, text_eq, advance_extend inside]
  split <;> rfl

include is_blank apart in
theorem Reads.extend {tokens : List Token} {fault : Option ScanError}
    (reads : s.Reads table tokens fault) (back : List Char) :
    ∃ later fault', (s.extend (blank :: back)).Reads table (tokens ++ later) fault' ∧
      ∀ e ∈ fault, later = [] ∧ fault' = some e := by
  induction reads with
  | @done s _ =>
      obtain ⟨later, fault', reads'⟩ := exists_reads table (s.extend (blank :: back))
      exact ⟨later, fault', reads', by simp⟩
  | @fault s after e more read_eq =>
      have read_eq' := @read_extend table blank is_blank apart back s more
      rw [read_eq] at read_eq'
      have more' : (s.extend (blank :: back)).skipBlanks.rest ≠ [] := by
        rw [skipBlanks_extend more]
        exact List.append_ne_nil_of_left_ne_nil more _
      exact ⟨[], some e, .fault more' read_eq', by simp⟩
  | @token s after a tokens fault more read_eq _ ih =>
      have read_eq' := @read_extend table blank is_blank apart back s more
      rw [read_eq] at read_eq'
      have more' : (s.extend (blank :: back)).skipBlanks.rest ≠ [] := by
        rw [skipBlanks_extend more]
        exact List.append_ne_nil_of_left_ne_nil more _
      obtain ⟨later, fault', reads', same⟩ := ih
      exact ⟨later, fault', .token more' read_eq' reads', same⟩

end Scanner

end blank

/-! ### Whole expressions -/

namespace Reordering

theorem pushAll_append_of_error {r : Reordering} {tokens : List Token} {e : StructureError}
    (h : r.pushAll tokens = .error e) (later : List Token) :
    r.pushAll (tokens ++ later) = .error e := by
  unfold pushAll at h ⊢
  rw [List.foldlM_append, h]
  rfl

theorem eq_unclosedOpening_of_finish {r : Reordering} {e : StructureError}
    (h : r.finish = .error e) : e = .unclosedOpening := by
  unfold finish at h
  split at h
  · exact (Except.error.inj h).symm
  · cases h

theorem ofExpression_of_parse_error {expression : String} {x : ReorderingError}
    (h : parse table expression = .error (.reordering x)) :
    ofExpression table expression = .error x := by
  unfold parse at h
  split at h
  · next reordered => rw [reordered, ConversionError.reordering.inj (Except.error.inj h)]
  · split at h <;> cases h

/-- An error that is met while an expression is read is met in the same place when the expression
goes on after a blank. -/
theorem ofExpression_extend {expression expression' : String} {x : ReorderingError}
    {blank : Char} {back : List Char} (is_blank : Text.isBlank blank = true)
    (apart : table.isNumberChar blank = false)
    (text_eq : expression'.toList = expression.toList ++ blank :: back)
    (h : ofExpression table expression = .error x)
    (is_final : (ConversionError.reordering x).IsFinal) :
    ofExpression table expression' = .error x := by
  obtain ⟨tokens, fault, reads⟩ := Scanner.exists_reads table (Scanner.ofText expression)
  obtain ⟨later, fault', reads', same⟩ := reads.extend is_blank apart back
  have start_eq : (Scanner.ofText expression).extend (blank :: back) =
      Scanner.ofText expression' := by
    unfold Scanner.ofText Scanner.extend
    rw [text_eq]
  rw [start_eq] at reads'
  rw [ofExpression_of_reads reads] at h
  rw [ofExpression_of_reads reads']
  cases received : empty.pushAll tokens with
  | error e =>
      rw [received] at h
      rw [pushAll_append_of_error received]
      exact h
  | ok r =>
      rw [received] at h
      cases fault with
      | some e =>
          obtain ⟨rfl, rfl⟩ := same e rfl
          rw [List.append_nil, received]
          exact h
      | none =>
          -- All has been read, so only a bracket that is left open can be at fault.
          dsimp only [Option.elim] at h
          cases finished : r.finish with
          | ok done =>
              rw [finished] at h
              cases h
          | error e =>
              obtain rfl := eq_unclosedOpening_of_finish finished
              rw [finished] at h
              obtain rfl := Except.error.inj h
              cases is_final

end Reordering

/-- An error that is met while an expression is read is reported in the same words, at the same
place, whatever is written after a space. -/
theorem parse_continued (apart : ' ' ∉ table.numberChars) {expression : String}
    {e : ConversionError} (failed : parse table expression = .error e) (is_final : e.IsFinal)
    (rest : String) : parse table (expression ++ " " ++ rest) = .error e := by
  have no_number : table.isNumberChar ' ' = false := by
    simpa [SymbolTable.isNumberChar] using apart
  have text_eq : (expression ++ " " ++ rest).toList = expression.toList ++ ' ' :: rest.toList := by
    simp
  obtain ⟨x, rfl⟩ : ∃ x, e = .reordering x := by
    cases is_final <;> exact ⟨_, rfl⟩
  have refused := Reordering.ofExpression_of_parse_error failed
  exact Reordering.parse_of_error
    (Reordering.ofExpression_extend Text.isBlank_space no_number text_eq refused is_final)

/-- In `2-+. 5` the number is read up to the space, as in `2-+.`, and in `3!)-x (1` the closing
bracket is stray, as in `3!)-x`. -/
theorem parse_continued_point :
    ' ' ∉ SymbolTable.standard.numberChars ∧
    parse .standard "2-+." = .error (.reordering (.scan (.malformedNumber "+." 2))) ∧
    parse .standard "2-+. 5" = .error (.reordering (.scan (.malformedNumber "+." 2))) ∧
    parse .standard "3!)-x" = .error (.reordering (.structural (.unmatchedClosing 2))) ∧
    parse .standard "3!)-x (1" = .error (.reordering (.structural (.unmatchedClosing 2))) := by
  have apart : ' ' ∉ SymbolTable.standard.numberChars := by
    decide
  have malformed : parse .standard "2-+." =
      .error (.reordering (.scan (.malformedNumber "+." 2))) := by
    decide +kernel
  have unmatched : parse .standard "3!)-x" =
      .error (.reordering (.structural (.unmatchedClosing 2))) := by
    decide +kernel
  exact ⟨apart, malformed, parse_continued apart malformed .malformedNumber "5", unmatched,
    parse_continued apart unmatched .unmatchedClosing "(1"⟩

end ReversePolish

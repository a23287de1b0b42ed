import ReversePolish.Proofs.Continuing
import ReversePolish.Proofs.Interleaving
import ReversePolish.Proofs.Signs

/-! # Errors of reading and their places

An error of reading names the text at which it is met and how many characters stand before it.  Both
are exact: `Fault` says what text at an offset is an error, without a scanner, and an expression
that is not read has such a text at the offset of its error.  What stands before the offset is read
by itself, as the tokens that come before the error (`fault_of_tokenize`).

As for tokens, lexemes come first (`Lexeme.fault_of_scan`), then one reading, then all that is left
of an expression, by induction on `Scanner.Reads`.  The tokens before the error were read with more
text after them; a text stands for the same token where the expression ends earlier
(`Denotes.of_append`). -/

namespace ReversePolish

variable {table : SymbolTable} {previous : Option Token}

/-- The error that is met at an offset, before the rest of an expression. -/
inductive Fault (table : SymbolTable) (offset : Nat) : List Char → ScanError → Prop
  /-- The longest run of characters that are not blank, where no text that it starts with is the
  literal of a symbol. -/
  | unrecognized {run rest : List Char} : run ≠ [] → (∀ c ∈ run, Text.isBlank c = false) →
      (∀ c ∈ rest.head?, Text.isBlank c = true) →
      (∀ text, text <+: run → text ≠ [] → table.lookup (String.ofList text) = none) →
      Fault table offset (run ++ rest) (.unrecognized (String.ofList run) offset)
  /-- A number character and the longest run of those that a number goes on with, which is no
  number. -/
  | malformedNumber {first : Char} {run rest : List Char} : table.isNumberChar first = true →
      (∀ c ∈ run, NumberGoesOn table c) → (∀ c ∈ rest.head?, ¬ NumberGoesOn table c) →
      Numeral.Binary64.parse? (first :: run) = none →
      Fault table offset (first :: (run ++ rest))
        (.malformedNumber (String.ofList (first :: run)) offset)

/-! ### Where the expression ends earlier -/

theorem NumberStarts.append {first : Char} {front : List Char}
    (h : NumberStarts table previous first front) (back : List Char) :
    NumberStarts table previous first (front ++ back) where
  number_char := h.number_char
  operand_due := h.operand_due
  sign_bound := by
    refine h.sign_bound.imp_right ?_
    rintro ⟨c, mem, number_char⟩
    exact ⟨c, by simp [Option.mem_def.mp mem], number_char⟩

theorem Denotes.of_append {text front back : List Char} {a : Token}
    (h : Denotes table previous text (front ++ back) a) : Denotes table previous text front a := by
  obtain ⟨first, more, rfl, -⟩ := h.exists_first
  refine h.of_rest (fun stop c mem => stop c ?_) (fun starts => ?_)
  · simp [Option.mem_def.mp mem]
  · rw [← List.append_assoc]
    exact starts.append back

/-! ### Lexemes -/

namespace Lexeme

variable {offset : Nat} {first : Char}

theorem exists_run_of_symbol {text chars : List Char} {e : ScanError}
    (h : (symbol table offset text chars).result = .error e) :
    ∃ run rest, chars = run ++ rest ∧ (∀ c ∈ run, Text.isBlank c = false) ∧
      (∀ c ∈ rest.head?, Text.isBlank c = true) ∧
      (∀ front, front <+: run → table.lookup (String.ofList (text ++ front)) = none) ∧
      e = .unrecognized (String.ofList (text ++ run)) offset := by
  -- The text grows by one character at a time, so the induction keeps it arbitrary.
  induction chars generalizing text with
  | nil =>
      rw [symbol] at h
      split at h
      · cases h
      · next not_found =>
        refine ⟨[], [], rfl, by simp, by simp, ?_, ?_⟩
        · intro front inside
          rw [List.prefix_nil.mp inside, List.append_nil]
          exact not_found
        · rw [List.append_nil]
          exact (Except.error.inj h).symm
  | cons c chars ih =>
      rw [symbol] at h
      split at h
      · cases h
      · next not_found =>
        split at h
        · next blank =>
          refine ⟨[], c :: chars, rfl, by simp, by simpa using blank, ?_, ?_⟩
          · intro front inside
            rw [List.prefix_nil.mp inside, List.append_nil]
            exact not_found
          · rw [List.append_nil]
            exact (Except.error.inj h).symm
        · next visible =>
          obtain ⟨run, rest, rfl, all_visible, stop, none_found, rfl⟩ := ih h
          refine ⟨c :: run, rest, rfl, ?_, stop, ?_, by simp⟩
          · intro d mem
            rcases List.mem_cons.mp mem with rfl | mem
            · simpa using visible
            · exact all_visible d mem
          · intro front inside
            rcases List.prefix_cons_iff.mp inside with rfl | ⟨front, rfl, shorter⟩
            · rwa [List.append_nil]
            · simpa using none_found front shorter

theorem fault_of_scan {chars : List Char} {e : ScanError} (visible : Text.isBlank first = false)
    (h : (scan table previous offset first chars).result = .error e) :
    Fault table offset (first :: chars) e := by
  by_cases starts : NumberStarts table previous first chars
  · obtain ⟨run, rest, rfl, on, stop⟩ := @exists_longest_run table chars
    rw [scan, if_pos (startsNumber_iff.mpr starts), number, numberText_eq on stop] at h
    split at h
    · cases h
    · next malformed =>
      obtain rfl := Except.error.inj h
      exact .malformedNumber starts.number_char on stop malformed
  · rw [scan, if_neg (startsNumber_iff.not.mpr starts)] at h
    obtain ⟨run, rest, rfl, all_visible, stop, none_found, rfl⟩ := exists_run_of_symbol h
    refine @Fault.unrecognized table offset (first :: run) rest (List.cons_ne_nil _ _) ?_ stop ?_
    · intro c mem
      rcases List.mem_cons.mp mem with rfl | mem
      · exact visible
      · exact all_visible c mem
    · intro text inside nonempty
      rcases List.prefix_cons_iff.mp inside with rfl | ⟨front, rfl, shorter⟩
      · exact absurd rfl nonempty
      · exact none_found front shorter

end Lexeme

/-! ### Readings -/

namespace Scanner

variable {s after : Scanner} {e : ScanError} {tokens : List Token}

theorem exists_fault_of_read (more : s.skipBlanks.rest ≠ [])
    (h : s.read table = (.error e, after)) :
    ∃ blanks chars, s.rest = blanks ++ chars ∧ (∀ c ∈ blanks, Text.isBlank c = true) ∧
      Fault table (s.cursor + blanks.length) chars e := by
  obtain ⟨first, chars, left⟩ := List.exists_cons_of_ne_nil more
  have dropped : s.rest.dropWhile Text.isBlank = first :: chars := by
    rw [← rest_skipBlanks, left]
  have visible : Text.isBlank first = false := by
    have := List.head?_dropWhile_not Text.isBlank s.rest
    rwa [dropped] at this
  simp only [read, left] at h
  split at h
  · cases h
  · next failed =>
    obtain rfl := Except.error.inj (Prod.mk.inj h).1
    refine ⟨s.rest.takeWhile Text.isBlank, first :: chars, ?_,
      fun c mem => List.mem_takeWhile_imp mem, Lexeme.fault_of_scan visible failed⟩
    rw [← dropped, List.takeWhile_append_dropWhile]

theorem cursor_of_read {text : List Char} (h : s.read table = (.ok a, after))
    (rest_eq : s.rest = text ++ after.rest) : after.cursor = s.cursor + text.length := by
  obtain ⟨count, inside, cursor_eq, left⟩ := ahead_read table s
  rw [h] at cursor_eq left
  dsimp only at cursor_eq left
  have lengths := congrArg List.length left
  rw [List.length_drop, rest_eq, List.length_append] at lengths
  rw [rest_eq, List.length_append] at inside
  omega

/-- Where an error ends the tokens that are left, it is met behind the text that spells them. -/
theorem Reads.exists_fault {fault : Option ScanError} (h : s.Reads table tokens fault)
    (failed : fault = some e) :
    ∃ front back, s.rest = front ++ back ∧ Spells table s.previous front tokens ∧
      Fault table (s.cursor + front.length) back e := by
  induction h with
  | done => cases failed
  | fault more read_eq =>
      obtain rfl := Option.some.inj failed
      obtain ⟨blanks, chars, rest_eq, blank, at_fault⟩ := exists_fault_of_read more read_eq
      exact ⟨blanks, chars, rest_eq, .blank blank, at_fault⟩
  | @token s after a tokens _ _ read_eq _ ih =>
      obtain ⟨blanks, text, blank, rest_eq, denotes⟩ := exists_denotes_of_read read_eq
      obtain ⟨front, back, after_eq, spells, at_fault⟩ := ih failed
      rw [(state_of_read read_eq).1] at spells
      rw [← List.append_assoc] at rest_eq
      have cursor_eq := cursor_of_read read_eq rest_eq
      -- With less text behind it, the token is still read the same.
      rw [after_eq] at rest_eq denotes
      refine ⟨blanks ++ (text ++ front), back, ?_, .token blank denotes.of_append spells, ?_⟩
      · rw [rest_eq]
        simp
      · rw [cursor_eq] at at_fault
        rw [← List.append_assoc, List.length_append, ← Nat.add_assoc]
        exact at_fault

end Scanner

/-! ### Whole expressions -/

theorem tokenize_of_parse_scan {expression : String} {e : ScanError}
    (h : parse table expression = .error (.reordering (.scan e))) :
    tokenize table expression = .error e := by
  have met := Reordering.ofExpression_of_parse_error h
  cases tokenized : tokenize table expression with
  | ok tokens => exact absurd met (Reordering.ofExpression_ne_scan tokenized e)
  | error e' =>
      obtain ⟨tokens, reads⟩ := Reordering.exists_reads_of_fault tokenized
      rw [Reordering.ofExpression_of_fault reads] at met
      split at met
      · cases met
      · obtain rfl := ReorderingError.scan.inj (Except.error.inj met)
        rfl

/-- The end of an expression is no error.  An error of reading is met at its offset, and what is
written before that is read as the tokens that come before the error. -/
theorem fault_of_tokenize (table : SymbolTable) (expression : String) :
    (∀ n, tokenize table expression ≠ .error (.endOfExpression n)) ∧
    (∀ n, parse table expression ≠ .error (.reordering (.scan (.endOfExpression n)))) ∧
    ∀ e, tokenize table expression = .error e →
      ∃ front back tokens, expression.toList = front ++ back ∧ Fault table front.length back e ∧
        tokenize table (String.ofList front) = .ok tokens ∧
          (Scanner.ofText expression).tokens table = (tokens, some e) := by
  have located {e : ScanError} (failed : tokenize table expression = .error e) :
      ∃ front back tokens, expression.toList = front ++ back ∧ Fault table front.length back e ∧
        tokenize table (String.ofList front) = .ok tokens ∧
          (Scanner.ofText expression).tokens table = (tokens, some e) := by
    obtain ⟨tokens, reads⟩ := Reordering.exists_reads_of_fault failed
    obtain ⟨front, back, rest_eq, spells, at_fault⟩ := reads.exists_fault rfl
    have start : (Scanner.ofText expression).cursor + front.length = front.length := Nat.zero_add _
    rw [start] at at_fault
    refine ⟨front, back, tokens, rest_eq, at_fault, ?_, Scanner.tokens_eq_of_reads reads rfl⟩
    apply tokenize_of_spells
    rw [String.toList_ofList]
    exact spells
  have no_end (n : Nat) : tokenize table expression ≠ .error (.endOfExpression n) := by
    intro failed
    obtain ⟨front, back, tokens, -, at_fault, -⟩ := located failed
    cases at_fault
  exact ⟨no_end, fun n met => no_end n (tokenize_of_parse_scan met), fun e => located⟩

/-- The tokens of `-1*` come before the text at fault in `-1 *  tan(0) + 2`, and those of `2-`
before the one in `2-+.5.1 -1`. -/
theorem fault_of_tokenize_tangent :
    (tokenize .standard "-1 *  tan(0) + 2" = .error (.unrecognized "tan(0)" 6) ∧
      ∃ front back tokens, "-1 *  tan(0) + 2".toList = front ++ back ∧
        Fault .standard front.length back (.unrecognized "tan(0)" 6) ∧
        tokenize .standard (String.ofList front) = .ok tokens ∧
          (Scanner.ofText "-1 *  tan(0) + 2").tokens .standard =
            (tokens, some (.unrecognized "tan(0)" 6))) ∧
    (tokenize .standard "2-+.5.1 -1" = .error (.malformedNumber "+.5.1" 2) ∧
      ∃ front back tokens, "2-+.5.1 -1".toList = front ++ back ∧
        Fault .standard front.length back (.malformedNumber "+.5.1" 2) ∧
        tokenize .standard (String.ofList front) = .ok tokens ∧
          (Scanner.ofText "2-+.5.1 -1").tokens .standard =
            (tokens, some (.malformedNumber "+.5.1" 2))) := by
  have unrecognized : tokenize .standard "-1 *  tan(0) + 2" =
      .error (.unrecognized "tan(0)" 6) := by
    decide +kernel
  have malformed : tokenize .standard "2-+.5.1 -1" = .error (.malformedNumber "+.5.1" 2) := by
    decide +kernel
  exact ⟨⟨unrecognized, (fault_of_tokenize .standard "-1 *  tan(0) + 2").2.2 _ unrecognized⟩,
    malformed, (fault_of_tokenize .standard "2-+.5.1 -1").2.2 _ malformed⟩

end ReversePolish

import ReversePolish.Proofs.Spelling

/-! # Signs after operands

Where an operand is complete no number starts, and a sign is an operator.  The scanner tells by the
token that it has read last, and after an operator of any kind it expects an operand.  So a number
may come right after an operand that ends in a unary operator, as in `3!-2`, and after no other
(`unary_of_number_after_operand`).

The second half of that theorem is about texts.  What a text stands for depends on little of what
comes after it (`Denotes.of_rest`), and a sign ends a number.  So a text that is an expression by
itself has the same tokens when a sign is written after it (`Spells.before_sign`). -/

namespace ReversePolish

/-- Tokens the last of which completes an operand. -/
inductive EndsOperand : List Token → Prop
  | number {before literal value} : EndsOperand (before ++ [.number literal value])
  | constant {before f} : f.isConstant = true → EndsOperand (before ++ [.symbol (.function f)])
  | closing {before literal} : EndsOperand (before ++ [.symbol (.closing literal)])
  /-- An operator after its only operand. -/
  | trailing {before o} : o.isUnary = true → EndsOperand before →
      EndsOperand (before ++ [.symbol (.operator o)])

theorem EndsOperand.exists_last {tokens : List Token} (h : EndsOperand tokens) :
    ∃ start last, tokens = start ++ [last] ∧
      (last.acceptsNumber = true → ∃ o, last = .symbol (.operator o) ∧ o.isUnary = true) := by
  cases h with
  | @number before literal value =>
      exact ⟨before, .number literal value, rfl, fun accepts => by cases accepts⟩
  | @constant before f _ =>
      exact ⟨before, .symbol (.function f), rfl, fun accepts => by cases accepts⟩
  | @closing before literal =>
      exact ⟨before, .symbol (.closing literal), rfl, fun accepts => by cases accepts⟩
  | @trailing before o one _ => exact ⟨before, .symbol (.operator o), rfl, fun _ => ⟨o, rfl, one⟩⟩

variable {table : SymbolTable} {previous : Option Token}

/-! ### What comes after a text -/

theorem isSign_eq_false_of_parse? {c : Char} {value : Numeral.Binary64}
    (parsed : Numeral.Binary64.parse? [c] = some value) : c ≠ '+' ∧ c ≠ '-' := by
  have plus : Numeral.Binary64.parse? ['+'] = none := by decide
  have minus : Numeral.Binary64.parse? ['-'] = none := by decide
  constructor
  · rintro rfl
    rw [plus] at parsed
    cases parsed
  · rintro rfl
    rw [minus] at parsed
    cases parsed

theorem NumberStarts.congr {first : Char} {rest rest' : List Char}
    (h : NumberStarts table previous first rest) (same : rest'.head? = rest.head?) :
    NumberStarts table previous first rest' where
  number_char := h.number_char
  operand_due := h.operand_due
  sign_bound := by
    rw [same]
    exact h.sign_bound

/-- A text stands for the same token before another rest, if a number may end there as well and none
starts at the text because of it. -/
theorem Denotes.of_rest {first : Char} {more rest rest' : List Char} {a : Token}
    (h : Denotes table previous (first :: more) rest a)
    (stop : (∀ c ∈ rest.head?, ¬ NumberGoesOn table c) → ∀ c ∈ rest'.head?, ¬ NumberGoesOn table c)
    (starts : NumberStarts table previous first (more ++ rest') →
      NumberStarts table previous first (more ++ rest)) :
    Denotes table previous (first :: more) rest' a := by
  cases h with
  | number visible starts on ends parsed =>
      refine Denotes.number visible ?_ on (stop ends) parsed
      cases more with
      | nil =>
          have unsigned := isSign_eq_false_of_parse? parsed
          exact ⟨starts.number_char, starts.operand_due, Or.inl unsigned⟩
      | cons c more => exact starts.congr rfl
  | symbol not_number found shortest visible =>
      refine Denotes.symbol (fun now => not_number (starts now)) found ?_ visible
      intro text inside nonempty resolved
      by_contra shorter
      -- A text that is shorter is a part of the text itself, so the rest does not matter.
      have inside_text : text <+: first :: more :=
        List.prefix_of_prefix_length_le inside ⟨rest', rfl⟩ (by omega)
      have whole : first :: more <+: first :: (more ++ rest) := ⟨rest, rfl⟩
      exact shorter (shortest text (inside_text.trans whole) nonempty resolved)

theorem Denotes.unique {text text' rest rest' : List Char} {a a' : Token}
    (h : Denotes table previous text rest a) (h' : Denotes table previous text' rest' a')
    (eq : text ++ rest = text' ++ rest') : text = text' ∧ rest = rest' ∧ a = a' := by
  obtain ⟨first, more, rfl, -⟩ := h.exists_first
  obtain ⟨first', more', rfl, -⟩ := h'.exists_first
  rw [List.cons_append, List.cons_append] at eq
  obtain ⟨rfl, tail_eq⟩ := List.cons.inj eq
  -- Both texts are what the scanner reads there.
  have scanned := @Lexeme.scan_of_denotes table previous 0 first more rest a h
  rw [tail_eq, Lexeme.scan_of_denotes h'] at scanned
  obtain ⟨text_eq, result_eq⟩ := Lexeme.mk.inj scanned
  obtain ⟨-, rfl⟩ := List.cons.inj text_eq
  exact ⟨rfl, List.append_cancel_left tail_eq, (Except.ok.inj result_eq).symm⟩

theorem eq_of_blanks_append {blanks blanks' chars chars' : List Char}
    (blank : ∀ c ∈ blanks, Text.isBlank c = true) (blank' : ∀ c ∈ blanks', Text.isBlank c = true)
    (visible : ∀ c ∈ chars.head?, Text.isBlank c = false)
    (visible' : ∀ c ∈ chars'.head?, Text.isBlank c = false)
    (eq : blanks ++ chars = blanks' ++ chars') : chars = chars' := by
  have cut := (Text.takeWhile_dropWhile_append blank visible).2
  rwa [eq, (Text.takeWhile_dropWhile_append blank' visible').2, eq_comm] at cut

theorem Denotes.visible {text rest : List Char} {a : Token}
    (h : Denotes table previous text rest a) :
    ∀ c ∈ (text ++ rest).head?, Text.isBlank c = false := by
  obtain ⟨first, more, rfl, visible⟩ := h.exists_first
  intro c mem
  obtain rfl := Option.some.inj mem
  exact visible

theorem Spells.exists_token {blanks chars : List Char} {tokens : List Token} {first : Char}
    (h : Spells table previous (blanks ++ first :: chars) tokens)
    (blank : ∀ c ∈ blanks, Text.isBlank c = true) (visible : Text.isBlank first = false) :
    ∃ text rest a later, first :: chars = text ++ rest ∧ tokens = a :: later ∧
      Denotes table previous text rest a ∧ Spells table (some a) rest later := by
  generalize eq : blanks ++ first :: chars = all at h
  cases h with
  | blank all_blank =>
      have := all_blank first (by simp [← eq])
      rw [visible] at this
      cases this
  | @token _ _ text rest a later blank' denotes spelled =>
      have visible_first : ∀ c ∈ (first :: chars).head?, Text.isBlank c = false := by
        intro c mem
        obtain rfl := Option.some.inj mem
        exact visible
      exact ⟨text, rest, a, later,
        eq_of_blanks_append blank blank' visible_first denotes.visible eq, rfl, denotes, spelled⟩

/-! ### Signs -/

section signs

variable {sign : Char} {back : List Char} (is_sign : Lexeme.isSign sign = true)
include is_sign

theorem isBlank_eq_false_of_isSign : Text.isBlank sign = false := by
  have either : sign = '+' ∨ sign = '-' := by simpa [Lexeme.isSign] using is_sign
  rcases either with rfl | rfl <;> decide

theorem not_numberGoesOn_of_isSign : ¬ NumberGoesOn table sign := by
  intro on
  rw [Lexeme.isSign_eq_false_iff.mpr on.no_sign] at is_sign
  cases is_sign

theorem Denotes.not_of_signs {first : Char} {text rest : List Char} {a : Token}
    (is_first : Lexeme.isSign first = true)
    (starts : NumberStarts table previous first (sign :: back))
    (eq : first :: sign :: back = text ++ rest) : ¬ Denotes table previous text rest a := by
  intro h
  obtain ⟨c, more, rfl, -⟩ := h.exists_first
  rw [List.cons_append] at eq
  obtain ⟨rfl, tail_eq⟩ := List.cons.inj eq
  cases h with
  | number _ _ on _ parsed =>
      cases more with
      | nil =>
          rw [Lexeme.isSign_eq_false_iff.mpr (isSign_eq_false_of_parse? parsed)] at is_first
          cases is_first
      | cons d more =>
          obtain ⟨rfl, -⟩ := List.cons.inj tail_eq
          exact not_numberGoesOn_of_isSign is_sign (on sign List.mem_cons_self)
  | symbol not_number =>
      rw [← tail_eq] at not_number
      exact not_number starts

/-- What a text stands for by itself is what is read of it before a sign, if anything is. -/
theorem Denotes.before_sign {text rest text' rest' : List Char} {a a' : Token}
    (h : Denotes table previous text rest a) (h' : Denotes table previous text' rest' a')
    (eq : text ++ (rest ++ sign :: back) = text' ++ rest') :
    rest ++ sign :: back = rest' ∧ a = a' := by
  obtain ⟨first, more, rfl, -⟩ := h.exists_first
  have stop (ends : ∀ c ∈ rest.head?, ¬ NumberGoesOn table c) :
      ∀ c ∈ (rest ++ sign :: back).head?, ¬ NumberGoesOn table c := by
    intro c mem
    cases rest with
    | nil =>
        obtain rfl := Option.some.inj mem
        exact not_numberGoesOn_of_isSign is_sign
    | cons d rest => exact ends c mem
  -- The sign changes where a number starts only if it comes right after another sign.
  have starts (now : NumberStarts table previous first (more ++ (rest ++ sign :: back))) :
      NumberStarts table previous first (more ++ rest) := by
    by_cases nothing_left : more ++ rest = []
    · obtain ⟨rfl, rfl⟩ := List.append_eq_nil_iff.mp nothing_left
      by_cases is_first : Lexeme.isSign first = true
      · exact absurd h' (Denotes.not_of_signs is_sign is_first now eq)
      · rw [Bool.not_eq_true, Lexeme.isSign_eq_false_iff] at is_first
        exact ⟨now.number_char, now.operand_due, Or.inl is_first⟩
    · obtain ⟨c, chars, cons_eq⟩ := List.exists_cons_of_ne_nil nothing_left
      refine now.congr ?_
      rw [← List.append_assoc, cons_eq]
      rfl
  obtain ⟨-, rest_eq, a_eq⟩ := (h.of_rest stop starts).unique h' eq
  exact ⟨rest_eq, a_eq⟩

theorem Spells.before_sign {front : List Char} {before tokens : List Token}
    (h : Spells table previous front before)
    (whole : Spells table previous (front ++ sign :: back) tokens) :
    ∃ blanks later, tokens = before ++ later ∧ (∀ c ∈ blanks, Text.isBlank c = true) ∧
      Spells table (before.getLast?.or previous) (blanks ++ sign :: back) later := by
  induction h generalizing tokens with
  | @blank previous blanks blank => exact ⟨blanks, tokens, rfl, blank, whole⟩
  | @token previous blanks text rest a before blank denotes _ ih =>
      obtain ⟨first, more, rfl, visible⟩ := denotes.exists_first
      have all_eq : blanks ++ (first :: more ++ rest) ++ sign :: back =
          blanks ++ first :: (more ++ (rest ++ sign :: back)) := by simp
      rw [all_eq] at whole
      obtain ⟨text', rest', a', later, eq, rfl, denotes', spelled⟩ :=
        whole.exists_token blank visible
      obtain ⟨rfl, rfl⟩ := denotes.before_sign is_sign denotes' eq
      obtain ⟨blanks', last, rfl, blank', spelled'⟩ := ih spelled
      refine ⟨blanks', last, rfl, blank', ?_⟩
      rw [List.getLast?_cons]
      cases ends : before.getLast? <;> simpa [ends] using spelled'

theorem Spells.symbol_of_sign {last : Token} {blanks : List Char} {tokens : List Token}
    (h : Spells table (some last) (blanks ++ sign :: back) tokens)
    (blank : ∀ c ∈ blanks, Text.isBlank c = true) (refuses : last.acceptsNumber = false) :
    ∃ s later, tokens = .symbol s :: later ∧ s.literal.toList.head? = some sign := by
  obtain ⟨text, rest, a, later, eq, rfl, denotes, -⟩ :=
    h.exists_token blank (isBlank_eq_false_of_isSign is_sign)
  cases denotes with
  | number _ starts =>
      have accepts := Token.acceptsNumber_iff.mpr (starts.operand_due last rfl)
      rw [refuses] at accepts
      cases accepts
  | @symbol first more _ s _ found =>
      obtain ⟨rfl, -⟩ := List.cons.inj eq
      refine ⟨s, later, rfl, ?_⟩
      rw [(SymbolTable.lookup_eq_some found).2, String.toList_ofList, List.head?_cons]

end signs

/-- A number comes right after a token that completes an operand only if that token is a unary
operator.  So where an operand is complete that does not end in one, a sign starts a symbol. -/
theorem unary_of_number_after_operand {expression : String} {tokens : List Token}
    (tokenized : tokenize table expression = .ok tokens) :
    (∀ before literal value rest, tokens = before ++ .number literal value :: rest →
      EndsOperand before →
        ∃ start o, before = start ++ [.symbol (.operator o)] ∧ o.isUnary = true) ∧
    ∀ front sign back before, expression.toList = front ++ sign :: back →
      sign = '+' ∨ sign = '-' → tokenize table (String.ofList front) = .ok before →
      EndsOperand before → (∀ start o, before ≠ start ++ [.symbol (.operator o)]) →
        ∃ s later, tokens = before ++ .symbol s :: later ∧ s.literal.toList.head? = some sign := by
  constructor
  · rintro before literal value rest rfl operand
    obtain ⟨start, last, rfl, unary⟩ := operand.exists_last
    rw [List.append_assoc, List.singleton_append] at tokenized
    obtain ⟨o, rfl, one⟩ := unary (acceptsNumber_of_tokenize tokenized)
    exact ⟨start, o, rfl, one⟩
  · intro front sign back before eq either front_tokenized operand other
    have is_sign : Lexeme.isSign sign = true := by simpa [Lexeme.isSign] using either
    have whole := spells_of_tokenize tokenized
    have front_spells := spells_of_tokenize front_tokenized
    rw [eq] at whole
    rw [String.toList_ofList] at front_spells
    obtain ⟨blanks, later, rfl, blank, spelled⟩ := front_spells.before_sign is_sign whole
    obtain ⟨start, last, rfl, unary⟩ := operand.exists_last
    rw [List.getLast?_concat, Option.some_or] at spelled
    have refuses : last.acceptsNumber = false := by
      by_contra accepts
      obtain ⟨o, rfl, -⟩ := unary (by simpa using accepts)
      exact other start o rfl
    obtain ⟨s, last_tokens, rfl, head⟩ := spelled.symbol_of_sign is_sign blank refuses
    exact ⟨s, last_tokens, rfl, head⟩

/-- The formula of `(1)-2!`. -/
def Formula.lessFactorial : Formula :=
  (Formula.ofNat 1).inBrackets.difference (Formula.ofNat 2).factorial

/-- In `(1)-2!-3` the first minus sign is an operator and the second one belongs to a number. -/
theorem unary_of_number_after_operand_signs :
    (tokenize .standard "(1)-2!-3" =
        .ok (Formula.lessFactorial.listing ++ [.number "-3" (.ofRatio true 3 1)]) ∧
      EndsOperand Formula.lessFactorial.listing ∧
      ∃ start o, Formula.lessFactorial.listing = start ++ [.symbol (.operator o)] ∧
        o.isUnary = true) ∧
    (tokenize .standard "(1)" = .ok (Formula.ofNat 1).inBrackets.listing ∧
      EndsOperand (Formula.ofNat 1).inBrackets.listing ∧
      ∃ s later, Formula.lessFactorial.listing ++ [.number "-3" (.ofRatio true 3 1)] =
        (Formula.ofNat 1).inBrackets.listing ++ .symbol s :: later ∧
          s.literal.toList.head? = some '-') := by
  have tokenized : tokenize .standard "(1)-2!-3" =
      .ok (Formula.lessFactorial.listing ++ [.number "-3" (.ofRatio true 3 1)]) := by
    decide +kernel
  have front_tokenized : tokenize .standard "(1)" = .ok (Formula.ofNat 1).inBrackets.listing := by
    decide +kernel
  have operand : EndsOperand Formula.lessFactorial.listing :=
    EndsOperand.trailing rfl (@EndsOperand.number [_, _, _, _] _ _)
  have front_operand : EndsOperand (Formula.ofNat 1).inBrackets.listing :=
    @EndsOperand.closing [_, _] _
  obtain ⟨numbers, signs⟩ := unary_of_number_after_operand tokenized
  refine ⟨⟨tokenized, operand, numbers _ _ _ [] rfl operand⟩, front_tokenized, front_operand, ?_⟩
  refine signs "(1)".toList '-' "2!-3".toList _ rfl (Or.inr rfl) front_tokenized front_operand ?_
  intro start o eq
  have last := congrArg List.getLast? eq
  rw [List.getLast?_concat] at last
  cases last

/-- A number may come right after a complete operand. -/
theorem number_after_factorial :
    ¬ ∀ (table : SymbolTable) (expression : String) (before rest : List Token) (literal : String)
      (value : Numeral.Binary64),
      tokenize table expression = .ok (before ++ .number literal value :: rest) →
        ¬ EndsOperand before := by
  intro never
  have tokenized : tokenize .standard "3!-2" =
      .ok ((Formula.ofNat 3).factorial.listing ++ [.number "-2" (.ofRatio true 2 1)]) := by
    decide +kernel
  have operand : EndsOperand (Formula.ofNat 3).factorial.listing :=
    EndsOperand.trailing rfl (@EndsOperand.number [] _ _)
  exact never _ _ _ _ _ _ tokenized operand

end ReversePolish

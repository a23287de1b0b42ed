import ReversePolish.Proofs.Joining
import ReversePolish.Proofs.Spacing

/-! # Canonical text

The literals of the tokens of an expression, joined with single spaces, are an expression with the
same tokens (`tokenize_joined`), if numbers may be made of the digits, the point and the minus sign
and hold no blanks.  The text of a symbol is its literal, and a space after it changes nothing
(`Denotes.before_blank`); a number is read from the literal of its value wherever an operand is due
(`denotes_literal`).  Only the sign of a zero is lost, which does not count when numbers are
compared (`Token.same`). -/

namespace ReversePolish

/-- The characters that literals of finite values are made of. -/
def plainNumberChars : List Char := "0123456789.-".toList

namespace Token

/-- Whether two tokens are the same, where numbers are compared as numbers. -/
def same : Token → Token → Bool
  | number literal value, number literal' value' => literal = literal' && value.same value'
  | symbol s, symbol s' => s = s'
  | _, _ => false

/-- The token that is read from the literal of a token. -/
def reread : Token → Token
  | number _ value => ofValue value.unsignedZero
  | symbol s => .symbol s

/-- Whether a token is finite, if it is a number. -/
def IsFinite (a : Token) : Prop :=
  ∀ literal value, a = number literal value → ∃ negative rank, value = .finite negative rank

theorem acceptsNumber_reread (a : Token) : a.reread.acceptsNumber = a.acceptsNumber := by
  cases a <;> rfl

end Token

variable {table : SymbolTable} {previous : Option Token}

/-! ### One token -/

theorem numberStarts_reread_iff {first : Char} {rest : List Char} :
    NumberStarts table (previous.map Token.reread) first rest ↔
      NumberStarts table previous first rest := by
  have same : Lexeme.startsNumber table (previous.map Token.reread) first rest =
      Lexeme.startsNumber table previous first rest := by
    cases previous with
    | none => rfl
    | some a => simp [Lexeme.startsNumber, Token.acceptsNumber_reread]
  rw [← Lexeme.startsNumber_iff, same, Lexeme.startsNumber_iff]

theorem Denotes.after_reread {text rest : List Char} {a : Token}
    (h : Denotes table previous text rest a) :
    Denotes table (previous.map Token.reread) text rest a := by
  cases h with
  | number visible starts on stop parsed =>
      exact Denotes.number visible (numberStarts_reread_iff.mpr starts) on stop parsed
  | symbol not_number found shortest visible =>
      exact Denotes.symbol (numberStarts_reread_iff.not.mpr not_number) found shortest visible

theorem Denotes.operand_due {text rest : List Char} {value : Numeral.Binary64}
    (h : Denotes table previous text rest (.ofValue value)) :
    ∀ a ∈ previous, a.acceptsNumber = true := by
  generalize number_eq : Token.ofValue value = a at h
  cases h with
  | number _ starts => exact fun a mem => Token.acceptsNumber_iff.mpr (starts.operand_due a mem)
  | symbol => cases number_eq

theorem Denotes.same_reread {text rest : List Char} {a : Token}
    (h : Denotes table previous text rest a) (finite : a.IsFinite) : a.same a.reread = true := by
  rcases h.kind with ⟨value, rfl⟩ | ⟨s, rfl, -⟩
  · obtain ⟨negative, rank, rfl⟩ := finite _ value rfl
    have literal_eq := Numeral.Binary64.literal_unsignedZero (.finite negative rank)
    have same := @Numeral.Binary64.same_unsignedZero (.finite negative rank) (by simp)
    simp [Token.same, Token.reread, Token.ofValue, literal_eq, same]
  · simp [Token.same, Token.reread]

section plain

variable (plain : ∀ c ∈ plainNumberChars, c ∈ table.numberChars)
include plain

theorem isNumberChar_of_plain {c : Char} (mem : c ∈ plainNumberChars) :
    table.isNumberChar c = true := by
  simpa [SymbolTable.isNumberChar] using plain c mem

theorem isNumberChar_of_isDigit {c : Char} (digit : c.isDigit = true) :
    table.isNumberChar c = true := by
  have codes : ∀ n < 58, 48 ≤ n → Char.ofNat n ∈ plainNumberChars := by decide
  obtain ⟨lower, upper⟩ := Numeral.toNat_of_isDigit digit
  have mem := codes c.toNat (by omega) lower
  rw [Char.ofNat_toNat] at mem
  exact isNumberChar_of_plain plain mem

theorem numberGoesOn_of_plain {c : Char} (h : c.isDigit = true ∨ c = '.') :
    NumberGoesOn table c := by
  rcases h with digit | rfl
  · refine ⟨isNumberChar_of_isDigit plain digit, ?_⟩
    constructor <;>
    · rintro rfl
      cases digit
  · exact ⟨isNumberChar_of_plain plain (by decide), by decide⟩

/-- Where an operand is due, a number starts at a digit, and at a minus sign before a digit. -/
theorem numberStarts_of_due {rest more : List Char} {first : Char}
    (due : ∀ a ∈ previous, a.acceptsNumber = true)
    (start : first.isDigit = true ∨ first = '-' ∧ ∃ c ∈ more.head?, c.isDigit = true) :
    NumberStarts table previous first (more ++ rest) := by
  refine ⟨?_, fun a mem => Token.acceptsNumber_iff.mp (due a mem), ?_⟩
  · rcases start with digit | ⟨rfl, -⟩
    · exact isNumberChar_of_isDigit plain digit
    · exact isNumberChar_of_plain plain (by decide)
  · rcases start with digit | ⟨rfl, c, mem, digit⟩
    · exact Or.inl (numberGoesOn_of_plain plain (Or.inl digit)).no_sign
    · refine Or.inr ⟨c, ?_, isNumberChar_of_isDigit plain digit⟩
      rw [List.head?_append, mem]
      rfl

variable (visible : ∀ c ∈ table.numberChars, Text.isBlank c = false)
include visible

/-- Where an operand is due, a finite value is read from its literal before a blank. -/
theorem denotes_literal {rest : List Char} {negative : Bool} {rank : Fin Numeral.finiteCount}
    (due : ∀ a ∈ previous, a.acceptsNumber = true)
    (blank : ∀ c ∈ rest.head?, Text.isBlank c = true) :
    Denotes table previous (Numeral.Binary64.finite negative rank).literal.toList rest
      (.ofValue (Numeral.Binary64.finite negative rank).unsignedZero) := by
  obtain ⟨first, more, text_eq, start, others⟩ :=
    Numeral.Binary64.exists_cons_of_literal negative rank
  have parsed := Numeral.Binary64.parse?_literal (.finite negative rank)
  have shown : Text.isBlank first = false :=
    (Numeral.Binary64.literal_visible (.finite negative rank)).2 first (by simp [text_eq])
  rw [text_eq] at parsed ⊢
  exact Denotes.number shown (numberStarts_of_due plain due start)
    (fun c mem => numberGoesOn_of_plain plain (others c mem))
    (fun c mem => not_numberGoesOn_of_isBlank visible (blank c mem)) parsed

theorem Denotes.reread {text rest rest' : List Char} {a : Token}
    (h : Denotes table previous text rest a) (finite : a.IsFinite)
    (blank : ∀ c ∈ rest'.head?, Text.isBlank c = true) :
    Denotes table (previous.map Token.reread) a.literal.toList rest' a.reread := by
  rcases h.kind with ⟨value, rfl⟩ | ⟨s, rfl, literal_eq, -⟩
  · obtain ⟨negative, rank, rfl⟩ := finite _ value rfl
    exact (denotes_literal plain visible h.operand_due blank).after_reread
  · have text_eq : (Token.symbol s).literal.toList = text := literal_eq
    rw [text_eq]
    exact (h.before_blank visible blank).after_reread

end plain

/-! ### Whole expressions -/

theorem Spells.of_denotes {text rest : List Char} {a : Token} {tokens : List Token}
    (denotes : Denotes table previous text rest a) (later : Spells table (some a) rest tokens) :
    Spells table previous (text ++ rest) (a :: tokens) := by
  have no_blanks : ∀ c ∈ ([] : List Char), Text.isBlank c = true := by simp
  exact Spells.token no_blanks denotes later

theorem Spells.after_blank {chars : List Char} {tokens : List Token}
    (h : Spells table previous chars tokens) : Spells table previous (' ' :: chars) tokens := by
  have space {blanks : List Char} (blank : ∀ c ∈ blanks, Text.isBlank c = true) :
      ∀ c ∈ ' ' :: blanks, Text.isBlank c = true := by
    simpa [Text.isBlank_space] using blank
  cases h with
  | blank blank => exact Spells.blank (space blank)
  | token blank denotes rest => exact Spells.token (space blank) denotes rest

/-- The literals of tokens with spaces between them spell the tokens that are read from them. -/
theorem Spells.reread (plain : ∀ c ∈ plainNumberChars, c ∈ table.numberChars)
    (visible : ∀ c ∈ table.numberChars, Text.isBlank c = false) {chars : List Char}
    {tokens : List Token} (h : Spells table previous chars tokens)
    (finite : ∀ a ∈ tokens, a.IsFinite) :
    Spells table (previous.map Token.reread)
      ([' '].intercalate (tokens.map fun a => a.literal.toList)) (tokens.map Token.reread) := by
  induction h with
  | blank => exact Spells.blank (by simp)
  | @token previous blanks text rest a tokens _ denotes _ ih =>
      have later := ih fun b mem => finite b (List.mem_cons_of_mem a mem)
      have finite_a := finite a List.mem_cons_self
      cases tokens with
      | nil =>
          have here : Denotes table (previous.map Token.reread) a.literal.toList [] a.reread :=
            denotes.reread plain visible finite_a (by simp)
          simpa using Spells.of_denotes here later
      | cons next tokens =>
          rw [List.map_cons, List.map_cons, List.intercalate_cons_cons, List.append_assoc]
          exact Spells.of_denotes
            (denotes.reread plain visible finite_a (by simp [Text.isBlank_space])) later.after_blank

/-- The literals of the tokens of an expression, joined with single spaces, have the same tokens. -/
theorem tokenize_joined (plain : ∀ c ∈ plainNumberChars, c ∈ table.numberChars)
    (visible : ∀ c ∈ table.numberChars, Text.isBlank c = false) {expression : String}
    {tokens : List Token} (tokenized : tokenize table expression = .ok tokens)
    (finite : ∀ a ∈ tokens, a.IsFinite) :
    ∃ tokens', tokenize table (" ".intercalate (tokens.map Token.literal)) = .ok tokens' ∧
      List.Forall₂ (fun a a' => Token.same a a' = true) tokens tokens' := by
  have spelled := spells_of_tokenize tokenized
  refine ⟨tokens.map Token.reread, ?_, ?_⟩
  · refine tokenize_of_spells ?_
    rw [String.toList_intercalate, List.map_map]
    exact spelled.reread plain visible finite
  · rw [List.forall₂_map_right_iff, List.forall₂_same]
    intro a mem
    obtain ⟨before, text, rest, denotes⟩ := spelled.exists_denotes a mem
    exact denotes.same_reread (finite a mem)

theorem standard_plain : ∀ c ∈ plainNumberChars, c ∈ SymbolTable.standard.numberChars := by
  have all : plainNumberChars.all SymbolTable.standard.isNumberChar = true := by decide
  intro c mem
  simpa [SymbolTable.isNumberChar] using List.all_eq_true.mp all c mem

/-- The tokens of `-0-+5.50!` are those of `0 - 5.5 !`, but for the sign of the zero. -/
theorem tokenize_joined_zero :
    tokenize .standard "-0-+5.50!" = .ok ((Formula.number "0" (.ofRatio true 0 1)).difference
      (Formula.number "5.5" (.ofRatio false 11 2)).factorial).listing ∧
    ∃ tokens', tokenize .standard "0 - 5.5 !" = .ok tokens' ∧
      List.Forall₂ (fun a a' => Token.same a a' = true)
        ((Formula.number "0" (.ofRatio true 0 1)).difference
          (Formula.number "5.5" (.ofRatio false 11 2)).factorial).listing tokens' := by
  have tokenized : tokenize .standard "-0-+5.50!" =
      .ok ((Formula.number "0" (.ofRatio true 0 1)).difference
        (Formula.number "5.5" (.ofRatio false 11 2)).factorial).listing := by
    decide +kernel
  have finite : ∀ a ∈ ((Formula.number "0" (.ofRatio true 0 1)).difference
      (Formula.number "5.5" (.ofRatio false 11 2)).factorial).listing, a.IsFinite := by
    intro a mem literal value number_eq
    subst number_eq
    simp only [Formula.listing, Formula.difference, Formula.factorial, List.mem_append,
      List.mem_cons, List.not_mem_nil, or_false, Token.number.injEq, reduceCtorEq,
      false_or] at mem
    rcases mem with ⟨-, value_eq⟩ | ⟨-, value_eq⟩
    · exact ⟨true, ⟨0, by decide⟩, value_eq.trans (by decide +kernel)⟩
    · exact ⟨false, ⟨0x4016000000000000, by decide⟩, value_eq.trans (by decide +kernel)⟩
  exact ⟨tokenized, tokenize_joined standard_plain standard_visible tokenized finite⟩

end ReversePolish

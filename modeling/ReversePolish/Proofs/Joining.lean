import ReversePolish.Proofs.Literals
import ReversePolish.Proofs.Signs

/-! # The postfix text

The literal of a token that is read is never empty and holds no blanks (`Spells.visible`): that of a
number is written for its value, and that of a symbol is the text that it was read from, whatever
else the table holds.  Words that are not empty and hold no blanks can be told apart when they are
joined with spaces, and trimming them takes nothing away (`joinLiterals_eq`).  So the tokens of a
postfix form can be told apart in its text (`convert_lossless`). -/

namespace ReversePolish

/-- A text is not empty and holds no blanks. -/
def Text.Visible (text : String) : Prop := text ≠ "" ∧ ∀ c ∈ text.toList, Text.isBlank c = false

variable {table : SymbolTable} {previous : Option Token}

/-! ### The literals of tokens -/

theorem Denotes.kind {text rest : List Char} {a : Token} (h : Denotes table previous text rest a) :
    (∃ value, a = .ofValue value) ∨
      ∃ s, a = .symbol s ∧ s.literal.toList = text ∧ ∀ c ∈ text, Text.isBlank c = false := by
  cases h with
  | number => exact Or.inl ⟨_, rfl⟩
  | @symbol first more _ s _ found _ visible =>
      refine Or.inr ⟨s, rfl, ?_, visible⟩
      rw [(SymbolTable.lookup_eq_some found).2, String.toList_ofList]

theorem Denotes.literal_visible {text rest : List Char} {a : Token}
    (h : Denotes table previous text rest a) : Text.Visible a.literal := by
  obtain ⟨first, more, text_eq, -⟩ := h.exists_first
  rcases h.kind with ⟨value, rfl⟩ | ⟨s, rfl, literal_eq, visible⟩
  · exact value.literal_visible
  · constructor
    · intro empty
      have : s.literal.toList = [] := congrArg String.toList empty
      rw [literal_eq, text_eq] at this
      cases this
    · exact fun c mem => visible c (literal_eq ▸ mem)

theorem Spells.exists_denotes {chars : List Char} {tokens : List Token}
    (h : Spells table previous chars tokens) :
    ∀ a ∈ tokens, ∃ before text rest, Denotes table before text rest a := by
  induction h with
  | blank => exact fun a mem => absurd mem List.not_mem_nil
  | token _ denotes _ ih =>
      intro b mem
      rcases List.mem_cons.mp mem with rfl | mem
      · exact ⟨_, _, _, denotes⟩
      · exact ih b mem

theorem Spells.visible {chars : List Char} {tokens : List Token}
    (h : Spells table previous chars tokens) : ∀ a ∈ tokens, Text.Visible a.literal := by
  intro a mem
  obtain ⟨before, text, rest, denotes⟩ := h.exists_denotes a mem
  exact denotes.literal_visible

/-! ### Joined words -/

theorem ends_of_intercalate {words : List (List Char)}
    (visible : ∀ word ∈ words, word ≠ [] ∧ ∀ c ∈ word, Text.isBlank c = false) :
    (∀ c ∈ ([' '].intercalate words).head?, Text.isBlank c = false) ∧
      ∀ c ∈ ([' '].intercalate words).getLast?, Text.isBlank c = false := by
  induction words with
  | nil => simp
  | cons word words ih =>
      obtain ⟨nonempty, shown⟩ := visible word List.mem_cons_self
      have later := ih fun word mem => visible word (List.mem_cons_of_mem _ mem)
      cases words with
      | nil =>
          rw [List.intercalate_singleton]
          exact ⟨fun c mem => shown c (List.mem_of_mem_head? mem),
            fun c mem => shown c (List.mem_of_getLast? mem)⟩
      | cons next words =>
          have rest_ne : [' '].intercalate (next :: words) ≠ [] := by
            have := (visible next (by simp)).1
            cases words <;> simp [this]
          rw [List.intercalate_cons_cons, List.append_assoc]
          constructor
          · intro c mem
            rw [List.head?_append_of_ne_nil _ nonempty] at mem
            exact shown c (List.mem_of_mem_head? mem)
          · rw [List.getLast?_append_of_ne_nil _ (by simp),
              List.getLast?_append_of_ne_nil _ rest_ne]
            exact later.2

/-- Where all literals are visible, they are joined with spaces and nothing is trimmed. -/
theorem joinLiterals_eq {tokens : List Token} (visible : ∀ a ∈ tokens, Text.Visible a.literal) :
    Token.joinLiterals tokens = " ".intercalate (tokens.map Token.literal) := by
  have words : ∀ word ∈ tokens.map fun token => token.literal.toList,
      word ≠ [] ∧ ∀ c ∈ word, Text.isBlank c = false := by
    intro word mem
    obtain ⟨a, inside, rfl⟩ := List.mem_map.mp mem
    obtain ⟨nonempty, shown⟩ := visible a inside
    exact ⟨fun empty => nonempty (String.toList_eq_nil_iff.mp empty), shown⟩
  obtain ⟨head, last⟩ := ends_of_intercalate words
  rw [← String.toList_inj, Token.joinLiterals, Text.trim, String.toList_ofList,
    String.toList_ofList, Text.trimBlanks_eq_self head last, String.toList_intercalate,
    List.map_map]
  rfl

/-! ### Postfix forms -/

theorem mem_of_mem_parse {expression : String} {tokens output : List Token}
    (tokenized : tokenize table expression = .ok tokens)
    (parsed : parse table expression = .ok output) : ∀ a ∈ output, a ∈ tokens := by
  obtain ⟨tokens', sent, after, tokenized', run, -, -, rfl⟩ := parse_eq_ok_iff.mp parsed
  obtain rfl := Except.ok.inj (tokenized.symm.trans tokenized')
  intro a mem
  obtain ⟨p, sent_mem, rfl⟩ := List.mem_map.mp mem
  have placed := (run.mem p sent_mem).resolve_left List.not_mem_nil
  exact token_mem_of_mem_place placed

theorem visible_of_parse {expression : String} {output : List Token}
    (parsed : parse table expression = .ok output) : ∀ a ∈ output, Text.Visible a.literal := by
  obtain ⟨tokens, -, -, tokenized, -⟩ := parse_eq_ok_iff.mp parsed
  exact fun a mem =>
    (spells_of_tokenize tokenized).visible a (mem_of_mem_parse tokenized parsed a mem)

/-- The tokens of a postfix form have visible literals, and its text is split into them at the
spaces. -/
theorem convert_lossless {expression : String} {output : List Token}
    (parsed : parse table expression = .ok output) :
    (∀ a ∈ output, a.literal ≠ "" ∧ ∀ c ∈ a.literal.toList, Text.isBlank c = false) ∧
    ∃ text, convert table expression = .ok text ∧
      text = " ".intercalate (output.map Token.literal) ∧ (output = [] → text = "") ∧
        (output ≠ [] →
          (text.split ' ').toList.map String.Slice.copy = output.map Token.literal) := by
  obtain ⟨tokens, -, -, tokenized, -⟩ := parse_eq_ok_iff.mp parsed
  have visible : ∀ a ∈ output, Text.Visible a.literal := fun a mem =>
    (spells_of_tokenize tokenized).visible a (mem_of_mem_parse tokenized parsed a mem)
  refine ⟨visible, _, ?_, rfl, ?_, ?_⟩
  · rw [convert, parsed, ← joinLiterals_eq visible]
    rfl
  · rintro rfl
    rfl
  · intro nonempty
    have no_space : ∀ literal ∈ output.map Token.literal, ' ' ∉ literal.toList := by
      intro literal mem space
      obtain ⟨a, inside, rfl⟩ := List.mem_map.mp mem
      have := (visible a inside).2 ' ' space
      rw [Text.isBlank_space] at this
      cases this
    have split_eq := String.toList_split_intercalate no_space
    rwa [if_neg (by simpa using nonempty)] at split_eq

/-- The postfix form of `3! - -2.50` is `3 ! -2.5 -`. -/
theorem convert_lossless_signed :
    ∃ output, parse .standard " 3! - -2.50" = .ok output ∧
      (∀ a ∈ output, a.literal ≠ "" ∧ ∀ c ∈ a.literal.toList, Text.isBlank c = false) ∧
      convert .standard " 3! - -2.50" = .ok "3 ! -2.5 -" ∧
      ("3 ! -2.5 -".split ' ').toList.map String.Slice.copy = ["3", "!", "-2.5", "-"] := by
  have parsed : parse .standard " 3! - -2.50" =
      .ok (Formula.difference (Formula.ofNat 3).factorial
        (Formula.number "-2.5" (.ofRatio true 5 2))).postorder := by
    decide +kernel
  obtain ⟨visible, text, converted, rfl, -, split_eq⟩ := convert_lossless parsed
  exact ⟨_, parsed, visible, converted, split_eq (List.cons_ne_nil _ _)⟩

end ReversePolish

import ReversePolish.Proofs.Receiving
import ReversePolish.Proofs.Signs

/-! # Blanks between tokens

An expression is the texts of its tokens with gaps of blanks before each and after the last
(`Segments`), and it can be cut into them in one way (`Segments.unique`).  If no blank can be part
of a number, a text stands for the same token before any blank (`Denotes.before_blank`).  So gaps
may be put in where there is none, and those that are there may be changed, as long as they stay
gaps: the tokens are the same, and all that depends on them (`tokenize_respaced`).

A gap may not be taken away, because signs and symbols can be read otherwise where something comes
right after them. -/

namespace ReversePolish

/-- Texts with a gap before each and one after the last. -/
def spaced : List (List Char) → List (List Char) → List Char
  | gap :: gaps, text :: texts => gap ++ (text ++ spaced gaps texts)
  | gaps, [] => gaps.flatten
  | [], _ => []

/-- The gaps and the texts of the tokens that characters spell after a token, if there is one. -/
inductive Segments (table : SymbolTable) :
    Option Token → List (List Char) → List (List Char) → List Token → Prop
  | last {previous : Option Token} {gap : List Char} : (∀ c ∈ gap, Text.isBlank c = true) →
      Segments table previous [gap] [] []
  | token {previous : Option Token} {gap text : List Char} {gaps texts : List (List Char)}
      {a : Token} {tokens : List Token} : (∀ c ∈ gap, Text.isBlank c = true) →
      Denotes table previous text (spaced gaps texts) a →
      Segments table (some a) gaps texts tokens →
      Segments table previous (gap :: gaps) (text :: texts) (a :: tokens)

/-- A gap may take the place of another: it is one of blanks, and not left out where there is
one. -/
structure Respaces (gap gap' : List Char) : Prop where
  blank : ∀ c ∈ gap', Text.isBlank c = true
  stays : gap ≠ [] → gap' ≠ []

variable {table : SymbolTable} {previous : Option Token}

/-! ### Texts before blanks -/

section visible

variable (visible : ∀ c ∈ table.numberChars, Text.isBlank c = false)
include visible

theorem isNumberChar_of_isBlank {c : Char} (blank : Text.isBlank c = true) :
    table.isNumberChar c = false := by
  by_contra number_char
  have mem : c ∈ table.numberChars := by
    simpa [SymbolTable.isNumberChar] using number_char
  rw [visible c mem] at blank
  cases blank

theorem not_numberGoesOn_of_isBlank {c : Char} (blank : Text.isBlank c = true) :
    ¬ NumberGoesOn table c := by
  intro on
  have := on.number_char
  rw [isNumberChar_of_isBlank visible blank] at this
  cases this

theorem Denotes.before_blank {text rest rest' : List Char} {a : Token}
    (h : Denotes table previous text rest a) (blank : ∀ c ∈ rest'.head?, Text.isBlank c = true) :
    Denotes table previous text rest' a := by
  obtain ⟨first, more, rfl, -⟩ := h.exists_first
  refine h.of_rest (fun _ c mem => not_numberGoesOn_of_isBlank visible (blank c mem)) fun now => ?_
  cases more with
  | cons c more => exact now.congr rfl
  | nil =>
      -- What comes next is no number character, so the number did not start because of it.
      refine ⟨now.number_char, now.operand_due, Or.inl ?_⟩
      refine now.sign_bound.resolve_right ?_
      rintro ⟨c, mem, number_char⟩
      rw [isNumberChar_of_isBlank visible (blank c mem)] at number_char
      cases number_char

end visible

/-! ### Segments -/

theorem Segments.spells {gaps texts : List (List Char)} {tokens : List Token}
    (h : Segments table previous gaps texts tokens) :
    Spells table previous (spaced gaps texts) tokens := by
  induction h with
  | last blank =>
      rw [spaced, List.flatten_cons, List.flatten_nil, List.append_nil]
      exact Spells.blank blank
  | token blank denotes _ ih => exact Spells.token blank denotes ih

theorem Spells.exists_segments {chars : List Char} {tokens : List Token}
    (h : Spells table previous chars tokens) :
    ∃ gaps texts, chars = spaced gaps texts ∧ Segments table previous gaps texts tokens := by
  induction h with
  | @blank _ blanks blank => exact ⟨[blanks], [], by simp [spaced], Segments.last blank⟩
  | @token _ blanks text rest _ _ blank denotes _ ih =>
      obtain ⟨gaps, texts, rfl, segments⟩ := ih
      exact ⟨blanks :: gaps, text :: texts, rfl, Segments.token blank denotes segments⟩

theorem Segments.unique {gaps gaps' texts texts' : List (List Char)} {tokens : List Token}
    (h : Segments table previous gaps texts tokens)
    (h' : Segments table previous gaps' texts' tokens)
    (eq : spaced gaps texts = spaced gaps' texts') : gaps = gaps' ∧ texts = texts' := by
  induction h generalizing gaps' texts' with
  | last =>
      cases h' with
      | last => simpa [spaced] using eq
  | token blank denotes _ ih =>
      cases h' with
      | token blank' denotes' segments' =>
          have rest_eq := eq_of_blanks_append blank blank' denotes.visible denotes'.visible eq
          obtain ⟨rfl, spaced_eq, -⟩ := denotes.unique denotes' rest_eq
          obtain ⟨rfl, rfl⟩ := ih segments' spaced_eq
          refine ⟨?_, rfl⟩
          rw [spaced, spaced] at eq
          rw [List.append_cancel_right eq]

theorem blank_or_same_head {gaps gaps' texts : List (List Char)} {tokens : List Token}
    (h : Segments table previous gaps texts tokens) (respaced : List.Forall₂ Respaces gaps gaps') :
    (∀ c ∈ (spaced gaps' texts).head?, Text.isBlank c = true) ∨
      (spaced gaps' texts).head? = (spaced gaps texts).head? := by
  cases respaced with
  | nil => cases h
  | @cons gap gap' gaps gaps' respaces rest =>
      cases gap' with
      | cons c gap' =>
          refine Or.inl fun d mem => ?_
          have first : (spaced ((c :: gap') :: gaps') texts).head? = some c := by
            cases texts <;> simp [spaced]
          rw [first] at mem
          exact respaces.blank d (by simp_all)
      | nil =>
          obtain rfl : gap = [] := by
            by_contra some_gap
            exact respaces.stays some_gap rfl
          refine Or.inr ?_
          cases h with
          | last =>
              cases rest
              rfl
          | @token _ _ text _ _ _ _ _ denotes =>
              obtain ⟨first, more, rfl, -⟩ := denotes.exists_first
              rfl

/-- With other gaps the same texts are those of the same tokens. -/
theorem Segments.respace (visible : ∀ c ∈ table.numberChars, Text.isBlank c = false)
    {gaps gaps' texts : List (List Char)} {tokens : List Token}
    (h : Segments table previous gaps texts tokens) (respaced : List.Forall₂ Respaces gaps gaps') :
    Segments table previous gaps' texts tokens := by
  induction h generalizing gaps' with
  | last =>
      cases respaced with
      | cons respaces rest =>
          cases rest
          exact Segments.last respaces.blank
  | token _ denotes segments ih =>
      cases respaced with
      | cons respaces rest =>
          refine Segments.token respaces.blank ?_ (ih rest)
          rcases blank_or_same_head segments rest with blank | same
          · exact denotes.before_blank visible blank
          · obtain ⟨first, more, rfl, -⟩ := denotes.exists_first
            refine denotes.of_rest (fun ends => ?_) fun now => now.congr ?_
            · rwa [same]
            · rw [List.head?_append, List.head?_append, same]

/-! ### Respaced expressions -/

theorem parse_eq_of_tokenize {expression expression' : String} {tokens : List Token}
    (h : tokenize table expression = .ok tokens) (h' : tokenize table expression' = .ok tokens) :
    parse table expression = parse table expression' := by
  unfold parse
  rw [Reordering.ofExpression_of_tokenize h, Reordering.ofExpression_of_tokenize h']

/-- Blanks between tokens do not matter: the texts of the tokens of an expression with gaps in other
places and of other blanks, where there are gaps at least, have the same tokens, the same postfix
form or error, and the same postfix text. -/
theorem tokenize_respaced (visible : ∀ c ∈ table.numberChars, Text.isBlank c = false)
    {expression : String} {tokens : List Token}
    (tokenized : tokenize table expression = .ok tokens) :
    (∃! cut : List (List Char) × List (List Char), expression.toList = spaced cut.1 cut.2 ∧
      Segments table none cut.1 cut.2 tokens) ∧
    ∀ gaps texts gaps', expression.toList = spaced gaps texts →
      Segments table none gaps texts tokens → List.Forall₂ Respaces gaps gaps' →
        tokenize table (String.ofList (spaced gaps' texts)) = .ok tokens ∧
        parse table (String.ofList (spaced gaps' texts)) = parse table expression ∧
        convert table (String.ofList (spaced gaps' texts)) = convert table expression := by
  constructor
  · obtain ⟨gaps, texts, eq, segments⟩ := (spells_of_tokenize tokenized).exists_segments
    refine ⟨(gaps, texts), ⟨eq, segments⟩, ?_⟩
    rintro ⟨gaps', texts'⟩ ⟨eq', segments'⟩
    obtain ⟨rfl, rfl⟩ := segments'.unique segments (eq'.symm.trans eq)
    rfl
  · intro gaps texts gaps' eq segments respaced
    have spelled := (segments.respace visible respaced).spells
    have retokenized : tokenize table (String.ofList (spaced gaps' texts)) = .ok tokens := by
      refine tokenize_of_spells ?_
      rwa [String.toList_ofList]
    have parse_eq := parse_eq_of_tokenize retokenized tokenized
    refine ⟨retokenized, parse_eq, ?_⟩
    rw [convert, convert, parse_eq]

theorem standard_visible : ∀ c ∈ SymbolTable.standard.numberChars, Text.isBlank c = false := by
  have all : SymbolTable.standard.numberChars.all (fun c => !Text.isBlank c) = true := by decide
  intro c mem
  simpa using List.all_eq_true.mp all c mem

/-- The space in `1- -2` may be any blank, and there may be blanks around the other texts. -/
theorem tokenize_respaced_signed :
    tokenize .standard "1- -2" = .ok ((Formula.ofNat 1).difference
      (.number "-2" (.ofRatio true 2 1))).listing ∧
    Segments .standard none [[], [], [' '], []] [['1'], ['-'], ['-', '2']]
      ((Formula.ofNat 1).difference (.number "-2" (.ofRatio true 2 1))).listing ∧
    List.Forall₂ Respaces [[], [], [' '], []] [[' '], ['\t'], ['\u00a0'], ['\n', ' ']] ∧
    tokenize .standard " 1\t-\u00a0-2\n " = .ok ((Formula.ofNat 1).difference
      (.number "-2" (.ofRatio true 2 1))).listing ∧
    parse .standard " 1\t-\u00a0-2\n " = parse .standard "1- -2" ∧
    convert .standard " 1\t-\u00a0-2\n " = convert .standard "1- -2" := by
  have tokenized : tokenize .standard "1- -2" = .ok ((Formula.ofNat 1).difference
      (.number "-2" (.ofRatio true 2 1))).listing := by
    decide +kernel
  have segments : Segments .standard none [[], [], [' '], []] [['1'], ['-'], ['-', '2']]
      ((Formula.ofNat 1).difference (.number "-2" (.ofRatio true 2 1))).listing := by
    refine .token (by simp)
      (Lexeme.denotes_of_scan (by decide) (by decide +kernel) (by decide +kernel)) ?_
    refine .token (by simp)
      (Lexeme.denotes_of_scan (by decide) (by decide +kernel) (by decide +kernel)) ?_
    refine .token (by simp [Text.isBlank_space])
      (Lexeme.denotes_of_scan (by decide) (by decide +kernel) (by decide +kernel)) ?_
    exact .last (by simp)
  have respaced : List.Forall₂ Respaces [[], [], [' '], []]
      [[' '], ['\t'], ['\u00a0'], ['\n', ' ']] := by
    refine .cons ⟨?_, by simp⟩ (.cons ⟨?_, by simp⟩ (.cons ⟨?_, by simp⟩
      (.cons ⟨?_, by simp⟩ .nil))) <;>
    · rw [← List.all_eq_true]
      decide
  have cut : "1- -2".toList = spaced [[], [], [' '], []] [['1'], ['-'], ['-', '2']] := by
    decide +kernel
  have joined : String.ofList (spaced [[' '], ['\t'], ['\u00a0'], ['\n', ' ']]
      [['1'], ['-'], ['-', '2']]) = " 1\t-\u00a0-2\n " := by
    decide +kernel
  have same := (tokenize_respaced standard_visible tokenized).2 _ _ _ cut segments respaced
  rw [joined] at same
  exact ⟨tokenized, segments, respaced, same⟩

end ReversePolish

import Mathlib.Data.List.TakeWhile
import ReversePolish.Proofs.Formula
import ReversePolish.Proofs.Reading

/-! # How expressions spell tokens

`Spells` cuts an expression into blanks and the texts of its tokens, and `Denotes` says what one
text stands for: where a number may start, the longest one, and elsewhere the shortest text that is
the literal of a symbol.  Both are said without a scanner.  `tokenize` reads the tokens that an
expression spells, and it spells those only (`tokenize_eq_ok_iff_spells`).

What the scanner reads is a lexeme, so it is for lexemes first that the two are compared
(`Lexeme.scan_of_denotes`, `Lexeme.exists_denotes_of_scan`), then for one reading, and then for all
that is left of an expression, by induction on `Scanner.Reads` and on `Spells`. -/

namespace ReversePolish

/-- Whether a number starts at a character, which comes after a token, if there is one, and before
the rest of an expression. -/
structure NumberStarts (table : SymbolTable) (previous : Option Token) (first : Char)
    (rest : List Char) : Prop where
  number_char : table.isNumberChar first = true
  operand_due : ∀ a ∈ previous, (∃ o, a = .symbol (.operator o)) ∨
    (∃ literal, a = .symbol (.divider literal)) ∨ ∃ literal, a = .symbol (.opening literal)
  sign_bound : first ≠ '+' ∧ first ≠ '-' ∨ ∃ c ∈ rest.head?, table.isNumberChar c = true

/-- Whether a number goes on at a character. -/
structure NumberGoesOn (table : SymbolTable) (c : Char) : Prop where
  number_char : table.isNumberChar c = true
  no_sign : c ≠ '+' ∧ c ≠ '-'

/-- A text before the rest of an expression stands for a token, by the token before it. -/
inductive Denotes (table : SymbolTable) (previous : Option Token) :
    List Char → List Char → Token → Prop
  /-- The longest run of characters, which is the text of a number. -/
  | number {first : Char} {run rest : List Char} {value : Numeral.Binary64} :
      Text.isBlank first = false → NumberStarts table previous first (run ++ rest) →
      (∀ c ∈ run, NumberGoesOn table c) → (∀ c ∈ rest.head?, ¬ NumberGoesOn table c) →
      Numeral.Binary64.parse? (first :: run) = some value →
      Denotes table previous (first :: run) rest (.ofValue value)
  /-- The shortest text that is the literal of a symbol, without blanks. -/
  | symbol {first : Char} {more rest : List Char} {s : Symbol} :
      ¬ NumberStarts table previous first (more ++ rest) →
      table.lookup (String.ofList (first :: more)) = some s →
      (∀ text, text <+: first :: (more ++ rest) → text ≠ [] →
        (table.lookup (String.ofList text)).isSome → (first :: more).length ≤ text.length) →
      (∀ c ∈ first :: more, Text.isBlank c = false) →
      Denotes table previous (first :: more) rest (.symbol s)

/-- Characters spell tokens after a token, if there is one: blanks come before the text of each and
after that of the last. -/
inductive Spells (table : SymbolTable) : Option Token → List Char → List Token → Prop
  | blank {previous : Option Token} {blanks : List Char} :
      (∀ c ∈ blanks, Text.isBlank c = true) → Spells table previous blanks []
  | token {previous : Option Token} {blanks text rest : List Char} {a : Token}
      {tokens : List Token} : (∀ c ∈ blanks, Text.isBlank c = true) →
      Denotes table previous text rest a → Spells table (some a) rest tokens →
      Spells table previous (blanks ++ (text ++ rest)) (a :: tokens)

theorem Token.acceptsNumber_iff {a : Token} :
    a.acceptsNumber = true ↔ (∃ o, a = .symbol (.operator o)) ∨
      (∃ literal, a = .symbol (.divider literal)) ∨ ∃ literal, a = .symbol (.opening literal) := by
  rcases a with _ | (_ | _ | _ | _ | _) <;> simp [acceptsNumber]

theorem Denotes.symbol_mem {table : SymbolTable} {previous : Option Token}
    {text rest : List Char} {s : Symbol} (h : Denotes table previous text rest (.symbol s)) :
    s ∈ table.symbols := by
  generalize symbol_eq : Token.symbol s = a at h
  cases h with
  | number => cases symbol_eq
  | symbol _ found =>
      obtain rfl := Token.symbol.inj symbol_eq
      exact (SymbolTable.lookup_eq_some found).1

theorem Denotes.exists_first {table : SymbolTable} {previous : Option Token}
    {text rest : List Char} {a : Token} (h : Denotes table previous text rest a) :
    ∃ first more, text = first :: more ∧ Text.isBlank first = false := by
  cases h with
  | number visible => exact ⟨_, _, rfl, visible⟩
  | symbol _ _ _ visible => exact ⟨_, _, rfl, visible _ List.mem_cons_self⟩

/-! ### Lexemes -/

namespace Lexeme

variable {table : SymbolTable} {previous : Option Token} {offset : Nat} {first : Char}

theorem isSign_eq_false_iff {c : Char} : isSign c = false ↔ c ≠ '+' ∧ c ≠ '-' := by
  simp [isSign]

theorem startsNumber_iff {rest : List Char} :
    startsNumber table previous first rest = true ↔ NumberStarts table previous first rest := by
  have operand : previous.all Token.acceptsNumber = true ↔ ∀ a ∈ previous,
      (∃ o, a = .symbol (.operator o)) ∨ (∃ literal, a = .symbol (.divider literal)) ∨
        ∃ literal, a = .symbol (.opening literal) := by
    rw [Option.all_eq_true]
    exact forall₂_congr fun a _ => Token.acceptsNumber_iff
  have sign : (!isSign first || rest.head?.any table.isNumberChar) = true ↔
      first ≠ '+' ∧ first ≠ '-' ∨ ∃ c ∈ rest.head?, table.isNumberChar c = true := by
    rw [Bool.or_eq_true, Bool.not_eq_true', isSign_eq_false_iff, Option.any_eq_true]
    rfl
  rw [startsNumber, Bool.and_eq_true, Bool.and_eq_true, operand, sign]
  exact ⟨fun h => ⟨h.1.1, h.1.2, h.2⟩, fun h => ⟨⟨h.number_char, h.operand_due⟩, h.sign_bound⟩⟩

theorem goesOn_iff {c : Char} :
    (table.isNumberChar c && !isSign c) = true ↔ NumberGoesOn table c := by
  rw [Bool.and_eq_true, Bool.not_eq_true', isSign_eq_false_iff]
  exact ⟨fun h => ⟨h.1, h.2⟩, fun h => ⟨h.number_char, h.no_sign⟩⟩

theorem exists_longest_run (chars : List Char) :
    ∃ run rest, chars = run ++ rest ∧ (∀ c ∈ run, NumberGoesOn table c) ∧
      ∀ c ∈ rest.head?, ¬ NumberGoesOn table c := by
  induction chars with
  | nil => exact ⟨[], [], rfl, by simp, by simp⟩
  | cons c chars ih =>
      by_cases on : NumberGoesOn table c
      · obtain ⟨run, rest, rfl, all_on, stop⟩ := ih
        refine ⟨c :: run, rest, rfl, fun d mem => ?_, stop⟩
        rcases List.mem_cons.mp mem with rfl | mem
        · exact on
        · exact all_on d mem
      · refine ⟨[], c :: chars, rfl, by simp, fun d mem => ?_⟩
        obtain rfl := Option.some.inj mem
        exact on

/-- The text of a number goes on as long as it can. -/
theorem numberText_eq {run rest : List Char} (on : ∀ c ∈ run, NumberGoesOn table c)
    (stop : ∀ c ∈ rest.head?, ¬ NumberGoesOn table c) :
    numberText table first (run ++ rest) = first :: run := by
  have cut := @Text.takeWhile_dropWhile_append _
    (fun c => table.isNumberChar c && !isSign c) run rest
    (fun c mem => goesOn_iff.mpr (on c mem))
    (fun c mem => by rw [← Bool.not_eq_true, goesOn_iff]; exact stop c mem)
  rw [numberText, cut.1]

/-- A text grows by some characters into the literal of a symbol, and into that of none before. -/
structure GrowsInto (table : SymbolTable) (text more : List Char) (s : Symbol) : Prop where
  found : table.lookup (String.ofList (text ++ more)) = some s
  shortest : ∀ front, front <+: more → front ≠ more →
    table.lookup (String.ofList (text ++ front)) = none
  visible : ∀ c ∈ more, Text.isBlank c = false

theorem growsInto_nil_iff {text : List Char} {s : Symbol} :
    GrowsInto table text [] s ↔ table.lookup (String.ofList text) = some s := by
  constructor
  · intro h
    have found := h.found
    rwa [List.append_nil] at found
  · intro found
    refine ⟨?_, fun front is_front other => ?_, by simp⟩
    · rwa [List.append_nil]
    · exact absurd (List.prefix_nil.mp is_front) other

theorem growsInto_cons_iff {text more : List Char} {c : Char} {s : Symbol} :
    GrowsInto table text (c :: more) s ↔ table.lookup (String.ofList text) = none ∧
      Text.isBlank c = false ∧ GrowsInto table (text ++ [c]) more s := by
  have append (xs : List Char) : text ++ [c] ++ xs = text ++ c :: xs := by simp
  constructor
  · intro h
    refine ⟨?_, h.visible c List.mem_cons_self, ?_, fun front is_front other => ?_,
      fun d mem => h.visible d (List.mem_cons_of_mem c mem)⟩
    · have := h.shortest [] List.nil_prefix (List.cons_ne_nil c more).symm
      rwa [List.append_nil] at this
    · rw [append]
      exact h.found
    · rw [append]
      exact h.shortest (c :: front) ((List.prefix_cons_inj c).mpr is_front) (by simpa using other)
  · rintro ⟨not_yet, visible, later⟩
    refine ⟨?_, fun front is_front other => ?_, fun d mem => ?_⟩
    · rw [← append]
      exact later.found
    · rcases List.prefix_cons_iff.mp is_front with rfl | ⟨front, rfl, shorter⟩
      · rwa [List.append_nil]
      · rw [← append]
        exact later.shortest front shorter (by simpa using other)
    · rcases List.mem_cons.mp mem with rfl | mem
      · exact visible
      · exact later.visible d mem

theorem symbol_of_growsInto {text more rest : List Char} {s : Symbol}
    (h : GrowsInto table text more s) :
    symbol table offset text (more ++ rest) = ⟨text ++ more, .ok (.symbol s)⟩ := by
  induction more generalizing text with
  | nil =>
      have found := growsInto_nil_iff.mp h
      cases rest <;> simp [symbol, found]
  | cons c more ih =>
      obtain ⟨not_yet, visible, later⟩ := growsInto_cons_iff.mp h
      rw [List.cons_append, symbol, not_yet]
      dsimp only
      rw [visible, if_neg Bool.false_ne_true, ih later, List.append_assoc, List.singleton_append]

theorem exists_growsInto_of_symbol {text chars : List Char} {a : Token}
    (h : (symbol table offset text chars).result = .ok a) :
    ∃ more rest s, chars = more ++ rest ∧ a = .symbol s ∧ GrowsInto table text more s := by
  induction chars generalizing text with
  | nil =>
      rw [symbol] at h
      split at h
      · next s found =>
        obtain rfl := Except.ok.inj h
        exact ⟨[], [], s, rfl, rfl, growsInto_nil_iff.mpr found⟩
      · cases h
  | cons c chars ih =>
      rw [symbol] at h
      split at h
      · next s found =>
        obtain rfl := Except.ok.inj h
        exact ⟨[], c :: chars, s, rfl, rfl, growsInto_nil_iff.mpr found⟩
      · next not_yet =>
        split at h
        · cases h
        · next visible =>
          obtain ⟨more, rest, s, rfl, rfl, later⟩ := ih h
          refine ⟨c :: more, rest, s, rfl, rfl, growsInto_cons_iff.mpr ⟨not_yet, ?_, later⟩⟩
          simpa using visible

/-- The text that grows from its first character into a literal is the shortest that is one. -/
theorem growsInto_singleton_iff {more rest : List Char} {s : Symbol} :
    GrowsInto table [first] more s ↔
      table.lookup (String.ofList (first :: more)) = some s ∧
      (∀ text, text <+: first :: (more ++ rest) → text ≠ [] →
        (table.lookup (String.ofList text)).isSome → (first :: more).length ≤ text.length) ∧
      ∀ c ∈ more, Text.isBlank c = false := by
  constructor
  · intro h
    refine ⟨h.found, fun text is_front nonempty resolved => ?_, h.visible⟩
    rcases List.prefix_cons_iff.mp is_front with rfl | ⟨front, rfl, inside⟩
    · exact absurd rfl nonempty
    · by_contra shorter
      rw [List.length_cons, List.length_cons] at shorter
      have is_front : front <+: more :=
        List.prefix_of_prefix_length_le inside (List.prefix_append more rest) (by omega)
      have other : front ≠ more := by
        rintro rfl
        omega
      have none_found := h.shortest front is_front other
      rw [List.singleton_append] at none_found
      rw [none_found] at resolved
      cases resolved
  · rintro ⟨found, shortest, visible⟩
    refine ⟨found, fun front is_front other => ?_, visible⟩
    by_contra resolved
    have inside : first :: front <+: first :: (more ++ rest) :=
      (List.prefix_cons_inj first).mpr (is_front.trans (List.prefix_append more rest))
    have longer := shortest (first :: front) inside (List.cons_ne_nil first front)
      (Option.isSome_iff_ne_none.mpr resolved)
    rw [List.length_cons, List.length_cons] at longer
    exact other (is_front.eq_of_length_le (by omega))

/-- A text is scanned as the token that it stands for. -/
theorem scan_of_denotes {more rest : List Char} {a : Token}
    (h : Denotes table previous (first :: more) rest a) :
    scan table previous offset first (more ++ rest) = ⟨first :: more, .ok a⟩ := by
  cases h with
  | number _ starts on stop value =>
      rw [scan, if_pos (startsNumber_iff.mpr starts), number, numberText_eq on stop, value]
  | symbol not_number found shortest visible =>
      have grows : GrowsInto table [first] more _ := growsInto_singleton_iff.mpr
        ⟨found, shortest, fun c mem => visible c (List.mem_cons_of_mem first mem)⟩
      rw [scan, if_neg (startsNumber_iff.not.mpr not_number), symbol_of_growsInto grows]
      rfl

theorem exists_denotes_of_scan {chars : List Char} {a : Token}
    (visible : Text.isBlank first = false)
    (h : (scan table previous offset first chars).result = .ok a) :
    ∃ more rest, chars = more ++ rest ∧ Denotes table previous (first :: more) rest a := by
  by_cases starts : NumberStarts table previous first chars
  · obtain ⟨run, rest, rfl, on, stop⟩ := @exists_longest_run table chars
    rw [scan, if_pos (startsNumber_iff.mpr starts), number, numberText_eq on stop] at h
    split at h
    · next value parsed =>
      obtain rfl := Except.ok.inj h
      exact ⟨run, rest, rfl, .number visible starts on stop parsed⟩
    · cases h
  · rw [scan, if_neg (startsNumber_iff.not.mpr starts)] at h
    obtain ⟨more, rest, s, rfl, rfl, grows⟩ := exists_growsInto_of_symbol h
    obtain ⟨found, shortest, all_visible⟩ := growsInto_singleton_iff.mp grows
    refine ⟨more, rest, rfl, .symbol starts found shortest fun c mem => ?_⟩
    rcases List.mem_cons.mp mem with rfl | mem
    · exact visible
    · exact all_visible c mem

theorem denotes_of_scan {more rest : List Char} {a : Token} (visible : Text.isBlank first = false)
    (text_eq : (scan table previous 0 first (more ++ rest)).text = first :: more)
    (result_eq : (scan table previous 0 first (more ++ rest)).result = .ok a) :
    Denotes table previous (first :: more) rest a := by
  obtain ⟨more', rest', eq, denotes⟩ := exists_denotes_of_scan visible result_eq
  rw [eq, scan_of_denotes denotes] at text_eq
  obtain ⟨-, rfl⟩ := List.cons.inj text_eq
  obtain rfl := List.append_cancel_left eq
  exact denotes

end Lexeme

/-! ### Readings -/

namespace Scanner

variable {table : SymbolTable} {s after : Scanner} {a : Token} {tokens : List Token}

theorem read_of_denotes {blanks text rest : List Char} (blank : ∀ c ∈ blanks, Text.isBlank c = true)
    (denotes : Denotes table s.previous text rest a) (rest_eq : s.rest = blanks ++ (text ++ rest)) :
    s.skipBlanks.rest ≠ [] ∧ ∃ after, s.read table = (.ok a, after) ∧ after.rest = rest ∧
      after.previous = some a := by
  obtain ⟨first, more, rfl, visible⟩ := denotes.exists_first
  have left : s.skipBlanks.rest = first :: (more ++ rest) := by
    rw [rest_skipBlanks, rest_eq]
    refine (Text.takeWhile_dropWhile_append blank ?_).2
    intro c mem
    obtain rfl := Option.some.inj mem
    exact visible
  have scanned : Lexeme.scan table s.skipBlanks.previous s.skipBlanks.cursor first (more ++ rest) =
      ⟨first :: more, .ok a⟩ := Lexeme.scan_of_denotes denotes
  refine ⟨by simp [left], { s.skipBlanks.advance (first :: more).length with previous := some a },
    ?_, ?_, rfl⟩
  · simp only [read, left, scanned]
  · simp [advance, left]

theorem exists_denotes_of_read (h : s.read table = (.ok a, after)) :
    ∃ blanks text, (∀ c ∈ blanks, Text.isBlank c = true) ∧ s.rest = blanks ++ (text ++ after.rest) ∧
      Denotes table s.previous text after.rest a := by
  simp only [read] at h
  split at h
  · cases h
  · next first chars left =>
    split at h
    · next token scanned =>
      obtain ⟨rfl, rfl⟩ : token = a ∧ _ = after := by simpa using h
      -- Blanks are skipped until a character that is none, where the lexeme starts.
      have dropped : s.rest.dropWhile Text.isBlank = first :: chars := by
        rw [← rest_skipBlanks, left]
      have visible : Text.isBlank first = false := by
        have := List.head?_dropWhile_not Text.isBlank s.rest
        rwa [dropped] at this
      obtain ⟨more, rest, rfl, denotes⟩ := Lexeme.exists_denotes_of_scan visible scanned
      have text_eq : (Lexeme.scan table s.skipBlanks.previous s.skipBlanks.cursor first
          (more ++ rest)).text = first :: more := by
        rw [Lexeme.scan_of_denotes denotes]
      have after_eq : (s.skipBlanks.advance (first :: more).length).rest = rest := by
        simp [advance, left]
      refine ⟨s.rest.takeWhile Text.isBlank, first :: more,
        fun c mem => List.mem_takeWhile_imp mem, ?_, ?_⟩
      · rw [text_eq, after_eq, List.cons_append, ← dropped, List.takeWhile_append_dropWhile]
      · rw [text_eq, after_eq]
        exact denotes
    · cases h

/-! ### All that is left of an expression -/

theorem Reads.spells {fault : Option ScanError} (h : s.Reads table tokens fault)
    (faultless : fault = none) : Spells table s.previous s.rest tokens := by
  induction h with
  | @done s ended =>
      rw [rest_skipBlanks, List.dropWhile_eq_nil_iff] at ended
      exact Spells.blank ended
  | fault => cases faultless
  | @token s after a tokens _ _ read_eq _ ih =>
      obtain ⟨blanks, text, blank, rest_eq, denotes⟩ := exists_denotes_of_read read_eq
      have later := ih faultless
      rw [(state_of_read read_eq).1] at later
      rw [rest_eq]
      exact Spells.token blank denotes later

theorem reads_of_spells {previous : Option Token} {chars : List Char}
    (h : Spells table previous chars tokens) (previous_eq : s.previous = previous)
    (rest_eq : s.rest = chars) : s.Reads table tokens none := by
  induction h generalizing s with
  | blank blank =>
      refine Reads.done ?_
      rw [rest_skipBlanks, rest_eq, List.dropWhile_eq_nil_iff]
      exact blank
  | token blank denotes _ ih =>
      subst previous_eq
      obtain ⟨more, after, read_eq, after_eq, remembered⟩ := read_of_denotes blank denotes rest_eq
      exact Reads.token more read_eq (ih remembered after_eq)

end Scanner

theorem spells_of_tokenize {table : SymbolTable} {expression : String} {tokens : List Token}
    (tokenized : tokenize table expression = .ok tokens) :
    Spells table none expression.toList tokens :=
  (tokenize_eq_ok_iff.mp tokenized).spells rfl

theorem tokenize_of_spells {table : SymbolTable} {expression : String} {tokens : List Token}
    (spells : Spells table none expression.toList tokens) :
    tokenize table expression = .ok tokens :=
  tokenize_eq_ok_iff.mpr (Scanner.reads_of_spells spells rfl rfl)

/-- The tokens of an expression are those that it spells, and there is at most one list of them. -/
theorem tokenize_eq_ok_iff_spells (table : SymbolTable) (expression : String) :
    (∀ tokens, tokenize table expression = .ok tokens ↔
      Spells table none expression.toList tokens) ∧
    ∀ tokens tokens', Spells table none expression.toList tokens →
      Spells table none expression.toList tokens' → tokens = tokens' := by
  have iff_spells (tokens : List Token) : tokenize table expression = .ok tokens ↔
      Spells table none expression.toList tokens := by
    rw [tokenize_eq_ok_iff]
    exact ⟨fun reads => reads.spells rfl, fun spells => Scanner.reads_of_spells spells rfl rfl⟩
  refine ⟨iff_spells, fun tokens tokens' spells spells' => ?_⟩
  have eq := ((iff_spells tokens).mpr spells).symm.trans ((iff_spells tokens').mpr spells')
  exact Except.ok.inj eq

/-- The formula of `-3 - -2!`, which has a minus sign before each number and one minus between
them. -/
def Formula.signed : Formula :=
  (Formula.number "-3" (.ofRatio true 3 1)).difference
    (Formula.number "-2" (.ofRatio true 2 1)).factorial

theorem tokenize_signed :
    Spells .standard none " -3--2 !".toList Formula.signed.listing ∧
      ∀ tokens, Spells .standard none " -3--2 !".toList tokens → Formula.signed.listing = tokens := by
  have tokenized : tokenize .standard " -3--2 !" = .ok Formula.signed.listing := by
    decide +kernel
  obtain ⟨iff_spells, unique⟩ := tokenize_eq_ok_iff_spells .standard " -3--2 !"
  have spells := (iff_spells Formula.signed.listing).mp tokenized
  exact ⟨spells, fun tokens => unique Formula.signed.listing tokens spells⟩

end ReversePolish

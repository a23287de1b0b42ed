import Mathlib.Logic.Relation
import ReversePolish.Proofs.Agreement

/-! # Tables that cannot be told apart

No expression tells two tables apart when one becomes the other by changes that leave alone what is
found under each literal (`parse_of_unseenChanges`).  The entries of a table are looked through part
by part, and each part from front to back, so such changes are to exchange neighbours with different
literals and to add or remove an entry whose literal an earlier entry has
(`SymbolTable.UnseenChange`).

Each kind of change keeps `lookup` and `isNumberChar`, by a fact on searching a list, and with them
the tables agree in the sense of `SymbolTable.Agrees`. -/

namespace ReversePolish

/-! ### Precedences under the identity -/

theorem Symbol.mapPrecedence_id : Symbol.mapPrecedence id = id := by
  funext s
  cases s <;> rfl

theorem Token.mapPrecedence_id : Token.mapPrecedence id = id := by
  funext a
  cases a with
  | number => rfl
  | symbol s => exact congrArg Token.symbol (congrFun Symbol.mapPrecedence_id s)

theorem ConversionError.mapPrecedence_id : ConversionError.mapPrecedence id = id := by
  funext e
  cases e with
  | reordering => rfl
  | misplaced p =>
      have token_eq := congrFun Token.mapPrecedence_id p.token
      exact congrArg (fun a => ConversionError.misplaced ⟨a, p.index⟩) token_eq

/-! ### Searching a list -/

section Search

variable {α : Type} (test : α → Bool) (before after : List α) {a b : α}

/-- An entry is not found if one before it passes whenever it does. -/
theorem find?_insert (shadowed : test a = true → ∃ b ∈ before, test b = true) :
    (before ++ a :: after).find? test = (before ++ after).find? test := by
  rw [List.find?_append, List.find?_append]
  cases found : before.find? test with
  | some b => rfl
  | none =>
      have failed : ¬ test a = true := by
        intro passed
        obtain ⟨b, mem, passed⟩ := shadowed passed
        exact List.find?_eq_none.mp found b mem passed
      rw [List.find?_cons_of_neg failed]

/-- The order of two neighbours does not matter if only one of them can pass. -/
theorem find?_exchange (apart : test a = true → test b = false) :
    (before ++ b :: a :: after).find? test = (before ++ a :: b :: after).find? test := by
  have neighbours : (b :: a :: after).find? test = (a :: b :: after).find? test := by
    cases first : test a with
    | true => simp [first, apart first]
    | false => simp [List.find?_cons, first]
  rw [List.find?_append, List.find?_append, neighbours]

end Search

/-! ### The parts of a table -/

/-- The kinds of symbols that a table lists. -/
inductive SymbolTable.Part where
  | functions
  | operators
  | openings
  | closings
  | dividers
deriving DecidableEq

namespace SymbolTable

/-- The symbols of one kind, from front to back. -/
def entries (table : SymbolTable) : Part → List Symbol
  | .functions => table.functions.map .function
  | .operators => table.operators.map .operator
  | .openings => table.openings.map .opening
  | .closings => table.closings.map .closing
  | .dividers => table.dividers.map .divider

namespace Part

/-- The parts that are looked through before a part. -/
def earlier : Part → List Part
  | functions => []
  | operators => [functions]
  | openings => [functions, operators]
  | closings => [functions, operators, openings]
  | dividers => [functions, operators, openings, closings]

/-- The parts that are looked through after a part. -/
def later : Part → List Part
  | functions => [operators, openings, closings, dividers]
  | operators => [openings, closings, dividers]
  | openings => [closings, dividers]
  | closings => [dividers]
  | dividers => []

theorem ne_iff_mem {part other : Part} : other ≠ part ↔ other ∈ part.earlier ++ part.later := by
  cases part <;> cases other <;> decide

end Part

theorem symbols_eq (table : SymbolTable) (part : Part) :
    table.symbols =
      part.earlier.flatMap table.entries ++ (table.entries part ++
        part.later.flatMap table.entries) := by
  cases part <;> simp [symbols, entries, Part.earlier, Part.later]

/-! ### Changes -/

/-- The second table has the characters of the first and, but for one part, its entries. -/
structure SameBut (part : Part) (table table' : SymbolTable) : Prop where
  numberChars_eq : table'.numberChars = table.numberChars
  entries_eq : ∀ other ≠ part, table'.entries other = table.entries other

instance {part : Part} {table table' : SymbolTable} : Decidable (table.SameBut part table') :=
  decidable_of_iff
    (table'.numberChars = table.numberChars ∧
      ∀ other ∈ part.earlier ++ part.later, table'.entries other = table.entries other)
    ⟨fun same => ⟨same.1, fun other ne => same.2 other (Part.ne_iff_mem.mp ne)⟩,
      fun same => ⟨same.1, fun other mem => same.2 other (Part.ne_iff_mem.mpr mem)⟩⟩

/-- The second table has one entry more, with a literal that an earlier entry has. -/
def AddsShadowed (table table' : SymbolTable) : Prop :=
  ∃ part before a after, table.SameBut part table' ∧
    table.entries part = before ++ after ∧ table'.entries part = before ++ a :: after ∧
      ∃ b ∈ part.earlier.flatMap table.entries ++ before, b.literal = a.literal

/-- A change of a table that cannot be noticed. -/
inductive UnseenChange (table table' : SymbolTable) : Prop
  /-- The characters of numbers in another order, or more or fewer times. -/
  | numberChars (chars : ∀ c, c ∈ table'.numberChars ↔ c ∈ table.numberChars)
      (entries_eq : ∀ part, table'.entries part = table.entries part)
  /-- Two neighbours of one part exchanged. -/
  | exchange {part : Part} {before after : List Symbol} {a b : Symbol}
      (same : table.SameBut part table') (old : table.entries part = before ++ a :: b :: after)
      (new : table'.entries part = before ++ b :: a :: after) (apart : a.literal ≠ b.literal)
  | add (adds : table.AddsShadowed table')
  | remove (adds : table'.AddsShadowed table)

variable {table table' : SymbolTable}

theorem SameBut.symbols_eq {part : Part} (same : table.SameBut part table') :
    table'.symbols =
      part.earlier.flatMap table.entries ++ (table'.entries part ++
        part.later.flatMap table.entries) := by
  have flatMap_eq {parts : List Part} (others : parts ⊆ part.earlier ++ part.later) :
      parts.flatMap table'.entries = parts.flatMap table.entries := by
    have entries_eq : ∀ other ∈ parts, table'.entries other = table.entries other :=
      fun other mem => same.entries_eq other (Part.ne_iff_mem.mpr (others mem))
    rw [List.flatMap, List.flatMap, List.map_congr_left entries_eq]
  rw [table'.symbols_eq part, flatMap_eq (List.subset_append_left _ _),
    flatMap_eq (List.subset_append_right _ _)]

theorem isNumberChar_congr (chars : ∀ c, c ∈ table'.numberChars ↔ c ∈ table.numberChars)
    (c : Char) : table'.isNumberChar c = table.isNumberChar c := by
  rw [Bool.eq_iff_iff]
  simpa [isNumberChar] using chars c

theorem AddsShadowed.lookup_eq (adds : table.AddsShadowed table') (literal : String) :
    table'.lookup literal = table.lookup literal := by
  obtain ⟨part, before, a, after, same, old, new, b, mem, literal_eq⟩ := adds
  have shadowed : decide (a.literal = literal) = true →
      ∃ b ∈ part.earlier.flatMap table.entries ++ before, decide (b.literal = literal) = true :=
    fun passed => ⟨b, mem, by rwa [literal_eq]⟩
  have searched := find?_insert (fun s => decide (s.literal = literal)) _
    (after ++ part.later.flatMap table.entries) shadowed
  rw [lookup, lookup, same.symbols_eq, table.symbols_eq part, old, new]
  simpa only [List.append_assoc, List.cons_append] using searched

namespace UnseenChange

theorem isNumberChar_eq (change : UnseenChange table table') (c : Char) :
    table'.isNumberChar c = table.isNumberChar c := by
  cases change with
  | numberChars chars _ => exact isNumberChar_congr chars c
  | exchange same => rw [isNumberChar, same.numberChars_eq, isNumberChar]
  | add adds =>
      obtain ⟨_, _, _, _, same, _⟩ := adds
      rw [isNumberChar, same.numberChars_eq, isNumberChar]
  | remove adds =>
      obtain ⟨_, _, _, _, same, _⟩ := adds
      rw [isNumberChar, isNumberChar, same.numberChars_eq]

theorem lookup_eq (change : UnseenChange table table') (literal : String) :
    table'.lookup literal = table.lookup literal := by
  cases change with
  | numberChars _ entries_eq =>
      have entries_eq : table'.entries = table.entries := funext entries_eq
      rw [lookup, lookup, table'.symbols_eq .functions, table.symbols_eq .functions, entries_eq]
  | @exchange part before after a b same old new apart =>
      have one : decide (a.literal = literal) = true → decide (b.literal = literal) = false := by
        rw [decide_eq_true_iff, decide_eq_false_iff_not]
        rintro rfl
        exact apart.symm
      have searched := find?_exchange (fun s => decide (s.literal = literal))
        (part.earlier.flatMap table.entries ++ before)
        (after ++ part.later.flatMap table.entries) one
      rw [lookup, lookup, same.symbols_eq, table.symbols_eq part, old, new]
      simpa only [List.append_assoc, List.cons_append] using searched
  | add adds => exact adds.lookup_eq literal
  | remove adds => exact (adds.lookup_eq literal).symm

end UnseenChange

theorem agrees_id (isNumberChar_eq : ∀ c, table'.isNumberChar c = table.isNumberChar c)
    (lookup_eq : ∀ literal, table'.lookup literal = table.lookup literal) :
    table.Agrees id table' where
  isNumberChar_eq := isNumberChar_eq
  lookup_eq literal := by
    rw [lookup_eq, Symbol.mapPrecedence_id, Option.map_id_fun]
    rfl
  pops_eq _ _ _ _ := rfl

/-- Any number of unseen changes leaves a table that agrees with the first one. -/
theorem agrees_of_unseenChanges (changes : Relation.ReflTransGen UnseenChange table table') :
    table.Agrees id table' := by
  have same : (∀ c, table'.isNumberChar c = table.isNumberChar c) ∧
      ∀ literal, table'.lookup literal = table.lookup literal := by
    induction changes with
    | refl => exact ⟨fun _ => rfl, fun _ => rfl⟩
    | tail _ change ih =>
        exact ⟨fun c => (change.isNumberChar_eq c).trans (ih.1 c),
          fun literal => (change.lookup_eq literal).trans (ih.2 literal)⟩
  exact agrees_id same.1 same.2

end SymbolTable

/-- Tables that unseen changes lead to give every expression the same tokens, the same postfix form
and the same text, and where there is none, the same error. -/
theorem parse_of_unseenChanges {table table' : SymbolTable}
    (changes : Relation.ReflTransGen SymbolTable.UnseenChange table table') (expression : String) :
    tokenize table' expression = tokenize table expression ∧
      parse table' expression = parse table expression ∧
      convert table' expression = convert table expression := by
  have agrees := SymbolTable.agrees_of_unseenChanges changes
  have tokenized := tokenize_of_agrees agrees expression
  have parsed := parse_of_agrees agrees expression
  rw [Token.mapPrecedence_id, List.map_id_fun] at tokenized parsed
  rw [ConversionError.mapPrecedence_id] at parsed
  have parsed : parse table' expression = parse table expression := by
    rw [parsed]
    cases parse table expression <;> rfl
  refine ⟨?_, parsed, ?_⟩
  · rw [tokenized]
    cases tokenize table expression <;> rfl
  · rw [convert, parsed, convert]

/-- The standard table with `(` as a closing bracket too, which is never found. -/
def SymbolTable.crowded : SymbolTable :=
  { standard with closings := [")", "("], literals_ne := by decide }

/-- The standard table with its characters in another order and one of them twice, `-` before `+`,
and `sin` as a divider too, which is never found. -/
def SymbolTable.shuffled : SymbolTable where
  numberChars := "+-.01234567890".toList
  functions := standard.functions
  operators := (standard.operators.take 2).reverse ++ standard.operators.drop 2
  dividers := [",", "sin"]
  openings := standard.openings
  closings := standard.closings
  literals_ne := by decide

/-- One change of each kind leads from the one table to the other, and `sin(1)--2` and `2+)` do not
tell them apart. -/
theorem parse_of_unseenChanges_shuffled :
    Relation.ReflTransGen SymbolTable.UnseenChange .crowded .shuffled ∧
    convert .crowded "sin(1)--2" = .ok "1 sin -2 -" ∧
    convert .shuffled "sin(1)--2" = .ok "1 sin -2 -" ∧
    parse .crowded "2+)" = .error (.reordering (.structural (.unmatchedClosing 2))) ∧
    parse .shuffled "2+)" = .error (.reordering (.structural (.unmatchedClosing 2))) := by
  have removed : SymbolTable.UnseenChange .crowded .standard := by
    exact .remove ⟨.closings, [.closing ")"], .closing "(", [], by decide, rfl, rfl,
      .opening "(", by decide, rfl⟩
  have reordered : SymbolTable.UnseenChange .standard
      { SymbolTable.standard with numberChars := SymbolTable.shuffled.numberChars } := by
    have all : SymbolTable.shuffled.numberChars ⊆ SymbolTable.standard.numberChars := by decide
    have all' : SymbolTable.standard.numberChars ⊆ SymbolTable.shuffled.numberChars := by decide
    exact .numberChars (fun _ => ⟨@all _, @all' _⟩) fun _ => rfl
  have exchanged : SymbolTable.UnseenChange
      { SymbolTable.standard with numberChars := SymbolTable.shuffled.numberChars }
      { SymbolTable.shuffled with dividers := [","], literals_ne := by decide } := by
    exact @SymbolTable.UnseenChange.exchange _ _ .operators [] _ _ _ (by decide) rfl rfl (by decide)
  have added : SymbolTable.UnseenChange
      { SymbolTable.shuffled with dividers := [","], literals_ne := by decide } .shuffled := by
    exact .add ⟨.dividers, [.divider ","], .divider "sin", [], by decide, rfl, rfl,
      .function ⟨"sin", 1, by decide⟩, by decide, rfl⟩
  have changes : Relation.ReflTransGen SymbolTable.UnseenChange .crowded .shuffled :=
    (((Relation.ReflTransGen.single removed).tail reordered).tail exchanged).tail added
  have converted : convert .crowded "sin(1)--2" = .ok "1 sin -2 -" := by
    decide +kernel
  have refused : parse .crowded "2+)" =
      .error (.reordering (.structural (.unmatchedClosing 2))) := by
    decide +kernel
  exact ⟨changes, converted, (parse_of_unseenChanges changes "sin(1)--2").2.2.trans converted,
    refused, (parse_of_unseenChanges changes "2+)").2.1.trans refused⟩

end ReversePolish

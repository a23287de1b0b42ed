import Mathlib.Data.List.Forall2
import ReversePolish.Symbol.Table

/-! # Tables and their descriptions

A table can be built again from the texts that describe its symbols, and comes out the same
(`table_descriptions`).  What stands between is which texts describe a symbol, the printed one among
them: for a function `ofDescription_eq_ok_iff` says that they are its name, a colon and a numeral of
its arity, and for an operator likewise.  So the symbols that have a description at all are those
whose name has no colon, with an arity that fits into 63 bits (`Describable`), and each of these is
described by its own description.

The lists of a table keep their order and their length, because each text describes one symbol
(`mapM_eq_ok_iff`). -/

namespace ReversePolish

/-! ### Numerals -/

namespace Numeral

theorem isDigit_of_natural? {digits : List Char} {n : Nat} (h : natural? digits = some n) :
    ∀ c ∈ digits, c.isDigit = true := by
  unfold natural? at h
  split at h
  · next all => exact List.all_eq_true.mp all.2
  · cases h

theorem colon_not_mem_of_integer? {cs : List Char} {n : Int} (h : integer? cs = some n) :
    ':' ∉ cs := by
  have no_digit : ∀ {digits : List Char} {m : Nat}, natural? digits = some m → ':' ∉ digits :=
    fun read mem => absurd (isDigit_of_natural? read ':' mem) (by decide)
  rw [integer?.eq_def] at h
  split at h <;> obtain ⟨m, read, -⟩ := Option.map_eq_some_iff.mp h
  · simpa using no_digit read
  · simpa using no_digit read
  · exact no_digit read

theorem integer64?_eq_some_iff {n : Int} {cs : List Char} :
    integer64? cs = some n ↔
      integer? cs = some n ∧ -0x8000000000000000 ≤ n ∧ n ≤ 0x7fffffffffffffff :=
  integerWithin?_eq_some_iff

end Numeral

/-! ### Functions -/

namespace FunctionSymbol

variable {text : String} {f : FunctionSymbol}

/-- Whether a function can be described: its name would end at a colon, and its arity is read as an
integer of 64 bits. -/
structure Describable (f : FunctionSymbol) : Prop where
  no_colon : ':' ∉ f.name.toList
  arity_le : f.arity.toNat ≤ 0x7fffffffffffffff

theorem make_eq_ok_iff {name : String} {arity : UInt64} :
    make name arity = .ok f ↔ f.name = name ∧ f.arity = arity := by
  obtain ⟨name', arity', name_ne⟩ := f
  unfold make
  split
  · next empty =>
    simp only [reduceCtorEq, false_iff]
    rintro ⟨rfl, -⟩
    exact name_ne empty
  · simp [eq_comm]

theorem ofDescription_eq_ok_iff :
    ofDescription text = .ok f ↔ ∃ arity, text.toList = f.name.toList ++ ':' :: arity ∧
      ':' ∉ f.name.toList ∧ Numeral.integer64? arity = some (f.arity.toNat : Int) := by
  unfold ofDescription
  constructor
  · intro h
    split at h
    · cases h
    · next name arity parts =>
      obtain ⟨text_eq, no_colon⟩ := Text.splitFirst_eq_some_iff.mp parts
      split at h
      · cases h
      · next n read =>
        split at h
        · cases h
        · next nonneg =>
          obtain ⟨name_eq, arity_eq⟩ := make_eq_ok_iff.mp h
          have upper := (Numeral.integer64?_eq_some_iff.mp read).2.2
          have value_eq : (f.arity.toNat : Int) = n := by
            rw [arity_eq, UInt64.toNat_ofNat']
            omega
          rw [name_eq, String.toList_ofList, value_eq]
          exact ⟨arity, text_eq, no_colon, read⟩
  · rintro ⟨arity, text_eq, no_colon, read⟩
    rw [text_eq, Text.splitFirst_append no_colon]
    simp [read, make_name_arity]

/-- A function is described by a text only if it has a description, and then it is described by
its own. -/
theorem describable_of_ofDescription (h : ofDescription text = .ok f) : f.Describable := by
  obtain ⟨arity, -, no_colon, read⟩ := ofDescription_eq_ok_iff.mp h
  have upper := (Numeral.integer64?_eq_some_iff.mp read).2.2
  exact ⟨no_colon, by omega⟩

theorem Describable.ofDescription_description (h : f.Describable) :
    ofDescription f.description = .ok f := by
  have upper := h.arity_le
  refine ofDescription_eq_ok_iff.mpr ⟨Numeral.integerText f.arity.toNat, ?_, h.no_colon, ?_⟩
  · rw [description, String.toList_ofList]
  · exact Numeral.integerWithin?_integerText (by omega) (by omega)

end FunctionSymbol

/-! ### Operators -/

theorem Operands.ofInt?_eq_some_iff {n : Int} {operands : Operands} :
    Operands.ofInt? n = some operands ↔ n = operands.count := by
  constructor
  · intro h
    unfold ofInt? at h
    split at h
    · next one =>
      obtain rfl := Option.some.inj h
      exact one
    · split at h
      · next two =>
        obtain rfl := Option.some.inj h
        exact two
      · cases h
  · rintro rfl
    exact ofInt?_count operands

theorem Associativity.ofText?_eq_some_iff {cs : List Char} {a : Associativity} :
    Associativity.ofText? cs = some a ↔ cs = [a.letter] := by
  constructor
  · intro h
    unfold ofText? at h
    split at h
    · next left =>
      obtain rfl := Option.some.inj h
      exact left
    · split at h
      · next right =>
        obtain rfl := Option.some.inj h
        exact right
      · cases h
  · rintro rfl
    exact ofText?_letter a

theorem Precedence.ofInt?_eq_some_iff {n : Int} {p : Precedence} :
    Precedence.ofInt? n = some p ↔ n = p.value := by
  constructor
  · intro h
    unfold ofInt? at h
    split at h
    · obtain rfl := Option.some.inj h
      rfl
    · cases h
  · rintro rfl
    exact ofInt?_value p

namespace OperatorSymbol

variable {text : String} {o : OperatorSymbol}

/-- Whether an operator can be described: its name would end at a colon. -/
def Describable (o : OperatorSymbol) : Prop := ':' ∉ o.name.toList

theorem make_eq_ok_iff {name : String} {arity : Int} {associativity : Associativity}
    {precedence : Precedence} :
    make name arity associativity precedence = .ok o ↔ o.name = name ∧ arity = o.operands.count ∧
      o.associativity = associativity ∧ o.precedence = precedence := by
  obtain ⟨name', operands, associativity', precedence', name_ne⟩ := o
  rw [← Operands.ofInt?_eq_some_iff]
  unfold make
  split
  · next empty =>
    simp only [reduceCtorEq, false_iff]
    rintro ⟨rfl, -⟩
    exact name_ne empty
  · cases Operands.ofInt? arity <;> simp [eq_comm]

theorem parts?_eq_some_iff {cs name arity associativity precedence : List Char} :
    parts? cs = some (name, arity, associativity, precedence) ↔
      cs = name ++ ':' :: (arity ++ ':' :: (associativity ++ ':' :: precedence)) ∧
        ':' ∉ name ∧ ':' ∉ arity ∧ ':' ∉ associativity := by
  constructor
  · intro h
    simp only [parts?, Option.bind_eq_bind, Option.bind_eq_some_iff, Option.pure_def, Prod.exists,
      Option.some.injEq, Prod.mk.injEq] at h
    obtain ⟨_, _, first, _, _, second, _, _, third, rfl, rfl, rfl, rfl⟩ := h
    obtain ⟨rfl, no_colon⟩ := Text.splitFirst_eq_some_iff.mp first
    obtain ⟨rfl, no_colon'⟩ := Text.splitFirst_eq_some_iff.mp second
    obtain ⟨rfl, no_colon''⟩ := Text.splitFirst_eq_some_iff.mp third
    exact ⟨rfl, no_colon, no_colon', no_colon''⟩
  · rintro ⟨rfl, no_colon, no_colon', no_colon''⟩
    simp [parts?, Text.splitFirst_append no_colon, Text.splitFirst_append no_colon',
      Text.splitFirst_append no_colon'']

theorem ofDescription_eq_ok_iff :
    ofDescription text = .ok o ↔ ∃ arity precedence,
      text.toList = o.name.toList ++
        ':' :: (arity ++ ':' :: ([o.associativity.letter] ++ ':' :: precedence)) ∧
      ':' ∉ o.name.toList ∧ Numeral.integer64? arity = some (o.operands.count : Int) ∧
        Numeral.integer? precedence = some o.precedence.value := by
  unfold ofDescription
  constructor
  · intro h
    split at h
    · cases h
    · next name arity associativity precedence parts =>
      obtain ⟨text_eq, no_colon, -, -⟩ := parts?_eq_some_iff.mp parts
      split at h
      · cases h
      · next n read =>
        split at h
        · cases h
        · next a letter =>
          split at h
          · cases h
          · next p bounded =>
            obtain ⟨name_eq, rfl, rfl, rfl⟩ := make_eq_ok_iff.mp h
            obtain rfl := Associativity.ofText?_eq_some_iff.mp letter
            obtain ⟨m, read', fits⟩ := Option.bind_eq_some_iff.mp bounded
            obtain rfl := Precedence.ofInt?_eq_some_iff.mp fits
            rw [name_eq, String.toList_ofList]
            exact ⟨arity, precedence, text_eq, no_colon, read, read'⟩
  · rintro ⟨arity, precedence, text_eq, no_colon, read, read'⟩
    have arity_plain := Numeral.colon_not_mem_of_integer? (Numeral.integer64?_eq_some_iff.mp read).1
    have letter_plain : ':' ∉ [o.associativity.letter] := by cases o.associativity <;> decide
    have parts := parts?_eq_some_iff.mpr ⟨text_eq, no_colon, arity_plain, letter_plain⟩
    rw [parts]
    simp [read, read', Associativity.ofText?_letter, Precedence.ofInt?_value, make_eq_ok_iff]

theorem describable_of_ofDescription (h : ofDescription text = .ok o) : o.Describable := by
  obtain ⟨_, _, -, no_colon, -⟩ := ofDescription_eq_ok_iff.mp h
  exact no_colon

theorem Describable.ofDescription_description (h : o.Describable) :
    ofDescription o.description = .ok o := by
  refine ofDescription_eq_ok_iff.mpr ⟨Numeral.integerText o.operands.count,
    Numeral.integerText o.precedence.value, ?_, h, ?_, Numeral.integer?_integerText _⟩
  · rw [description, String.toList_ofList]
    rfl
  · refine Numeral.integerWithin?_integerText ?_ ?_ <;> cases o.operands <;> decide

end OperatorSymbol

/-! ### Tables -/

theorem mapM_eq_ok_iff {α β ε : Type} {f : α → Except ε β} {xs : List α} {ys : List β} :
    xs.mapM f = .ok ys ↔ List.Forall₂ (fun x y => f x = .ok y) xs ys := by
  induction xs generalizing ys with
  | nil => simp [pure, Except.pure, eq_comm]
  | cons x xs ih =>
      rw [List.mapM_cons, List.forall₂_cons_left_iff]
      cases first : f x with
      | error e => simp [bind, Except.bind]
      | ok y =>
          cases later : xs.mapM f with
          | error e => simp [bind, Except.bind, ← ih, later]
          | ok rest => simp [bind, Except.bind, pure, Except.pure, ← ih, later, eq_comm]

namespace SymbolTable

/-- The texts that a table is built from. -/
structure Descriptions where
  numberChars : String
  functions : List String
  operators : List String
  dividers : List String
  openings : List String
  closings : List String
deriving DecidableEq

/-- The table that texts describe. -/
def Descriptions.table (d : Descriptions) : Except SymbolError SymbolTable :=
  ofDescriptions d.numberChars d.functions d.operators d.dividers d.openings d.closings

/-- The texts that describe a table. -/
def descriptions (table : SymbolTable) : Descriptions where
  numberChars := String.ofList table.numberChars
  functions := table.functions.map FunctionSymbol.description
  operators := table.operators.map OperatorSymbol.description
  dividers := table.dividers
  openings := table.openings
  closings := table.closings

/-- Texts describe a table symbol by symbol. -/
structure Describes (d : Descriptions) (table : SymbolTable) : Prop where
  numberChars : table.numberChars = d.numberChars.toList
  functions : List.Forall₂ (fun text f => FunctionSymbol.ofDescription text = .ok f)
    d.functions table.functions
  operators : List.Forall₂ (fun text o => OperatorSymbol.ofDescription text = .ok o)
    d.operators table.operators
  dividers : table.dividers = d.dividers
  openings : table.openings = d.openings
  closings : table.closings = d.closings

variable {d : Descriptions} {table : SymbolTable}

theorem make_eq_ok_iff {numberChars : List Char} {functions : List FunctionSymbol}
    {operators : List OperatorSymbol} {dividers openings closings : List String} :
    make numberChars functions operators dividers openings closings = .ok table ↔
      table.numberChars = numberChars ∧ table.functions = functions ∧
        table.operators = operators ∧ table.dividers = dividers ∧ table.openings = openings ∧
          table.closings = closings := by
  obtain ⟨numberChars', functions', operators', dividers', openings', closings', nonempty⟩ := table
  unfold make
  split
  · simp [eq_comm]
  · next empty =>
    simp only [reduceCtorEq, false_iff]
    rintro ⟨rfl, rfl, rfl, rfl, rfl, rfl⟩
    exact empty nonempty

theorem Descriptions.table_eq_ok_iff : d.table = .ok table ↔ Describes d table := by
  unfold Descriptions.table ofDescriptions
  constructor
  · intro h
    cases functions_eq : d.functions.mapM FunctionSymbol.ofDescription with
    | error e => simp [functions_eq, bind, Except.bind] at h
    | ok functions =>
        cases operators_eq : d.operators.mapM OperatorSymbol.ofDescription with
        | error e => simp [functions_eq, operators_eq, bind, Except.bind] at h
        | ok operators =>
            simp only [functions_eq, operators_eq, bind, Except.bind, make_eq_ok_iff] at h
            obtain ⟨numberChars, rfl, rfl, dividers, openings, closings⟩ := h
            exact ⟨numberChars, mapM_eq_ok_iff.mp functions_eq, mapM_eq_ok_iff.mp operators_eq,
              dividers, openings, closings⟩
  · intro h
    simp only [mapM_eq_ok_iff.mpr h.functions, mapM_eq_ok_iff.mpr h.operators, bind, Except.bind]
    exact make_eq_ok_iff.mpr ⟨h.numberChars, rfl, rfl, h.dividers, h.openings, h.closings⟩

/-- Whether all symbols of a table can be described. -/
structure Describable (table : SymbolTable) : Prop where
  functions : ∀ f ∈ table.functions, f.Describable
  operators : ∀ o ∈ table.operators, o.Describable

theorem Describes.describable (h : Describes d table) : table.Describable where
  functions := by
    have described := h.functions.flip.imp fun f text eq =>
      And.intro (FunctionSymbol.describable_of_ofDescription eq) eq
    exact ((List.forall₂_and_left _ _).mp described).1
  operators := by
    have described := h.operators.flip.imp fun o text eq =>
      And.intro (OperatorSymbol.describable_of_ofDescription eq) eq
    exact ((List.forall₂_and_left _ _).mp described).1

theorem Describable.describes_descriptions (h : table.Describable) :
    Describes table.descriptions table where
  numberChars := String.toList_ofList.symm
  functions := by
    rw [descriptions, List.forall₂_map_left_iff, List.forall₂_same]
    exact fun f mem => (h.functions f mem).ofDescription_description
  operators := by
    rw [descriptions, List.forall₂_map_left_iff, List.forall₂_same]
    exact fun o mem => (h.operators o mem).ofDescription_description
  dividers := rfl
  openings := rfl
  closings := rfl

/-- The tables that texts describe are those whose symbols can be described. -/
theorem exists_table_eq_ok_iff :
    (∃ d : Descriptions, d.table = .ok table) ↔ table.Describable := by
  constructor
  · rintro ⟨d, built⟩
    exact (Descriptions.table_eq_ok_iff.mp built).describable
  · intro h
    exact ⟨table.descriptions, Descriptions.table_eq_ok_iff.mpr h.describes_descriptions⟩

/-- A table that texts describe is described by its own descriptions, and by these it is the same
table, with the same descriptions. -/
theorem table_descriptions (built : d.table = .ok table) :
    ∃ again, table.descriptions.table = .ok again ∧ again = table ∧
      again.descriptions = table.descriptions := by
  have describable := exists_table_eq_ok_iff.mp ⟨d, built⟩
  have rebuilt := Descriptions.table_eq_ok_iff.mpr describable.describes_descriptions
  exact ⟨table, rebuilt, rfl, rfl⟩

/-- Texts with signs and leading zeros, and numbers at the ends of their ranges. -/
def spelledOut : Descriptions where
  numberChars := "10 1"
  functions := ["max:+0002", "sum:9223372036854775807", "e:-0"]
  operators := ["-:01:r:-2147483648", "l:2:l:+2147483647", "-:2:r:-007"]
  dividers := [";", ":"]
  openings := ["[", "["]
  closings := []

/-- The texts that such a table is described by are shorter, and describe the same table. -/
theorem table_descriptions_spelledOut :
    ∃ table, spelledOut.table = .ok table ∧
      table.descriptions = { spelledOut with
        functions := ["max:2", "sum:9223372036854775807", "e:0"]
        operators := ["-:1:r:-2147483648", "l:2:l:2147483647", "-:2:r:-7"] } ∧
      ∃ again, table.descriptions.table = .ok again ∧ again = table ∧
        again.descriptions = table.descriptions := by
  have described : spelledOut.table.map descriptions = .ok { spelledOut with
      functions := ["max:2", "sum:9223372036854775807", "e:0"]
      operators := ["-:1:r:-2147483648", "l:2:l:2147483647", "-:2:r:-7"] } := by
    decide +kernel
  cases built : spelledOut.table with
  | error e =>
      rw [built] at described
      cases described
  | ok table =>
      rw [built] at described
      exact ⟨table, rfl, Except.ok.inj described, table_descriptions built⟩

end SymbolTable

end ReversePolish

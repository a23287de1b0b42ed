import Mathlib.Data.List.Induction
import ReversePolish.Proofs.Descriptions

/-! # What texts describe

Every text describes one symbol of a kind, or is refused for one reason.  A `Verdict` says which, by
the parts of the text that colons separate and the integers that its numerals denote; each reason
comes with the checks that the text has passed before.  Verdicts are said without reading a text,
and there is one for every text (`exists_verdict`), so reading gives the verdict and nothing else
(`ofDescription_eq_iff_verdict`).

A symbol is read back from its own description if its name has no colon, except for functions whose
arity needs 64 bits, because an arity is read as a signed integer
(`ofDescription_description_of_make`). -/

namespace ReversePolish

/-! ### Numerals -/

namespace Numeral

/-- Decimal digits, of which there is at least one, and the number that they denote. -/
inductive Digits : List Char → Nat → Prop
  | single {c : Char} : c.isDigit = true → Digits [c] (c.toNat - '0'.toNat)
  | snoc {cs : List Char} {n : Nat} {c : Char} : Digits cs n → c.isDigit = true →
      Digits (cs ++ [c]) (10 * n + (c.toNat - '0'.toNat))

/-- Decimal digits after a sign, if there is one, and the integer that they denote. -/
inductive SignedDecimal : List Char → Int → Prop
  | unsigned {cs : List Char} {n : Nat} : Digits cs n → SignedDecimal cs n
  | plus {cs : List Char} {n : Nat} : Digits cs n → SignedDecimal ('+' :: cs) n
  | minus {cs : List Char} {n : Nat} : Digits cs n → SignedDecimal ('-' :: cs) (-n)

/-- A signed decimal of an integer within bounds, which are included. -/
structure DecimalWithin (least greatest : Int) (cs : List Char) (n : Int) : Prop where
  signed : SignedDecimal cs n
  lower : least ≤ n
  upper : n ≤ greatest

/-- A signed decimal of an integer of 64 bits. -/
abbrev Decimal64 := DecimalWithin (-0x8000000000000000) 0x7fffffffffffffff

/-- A signed decimal of an integer of 32 bits. -/
abbrev Decimal32 := DecimalWithin (-0x80000000) 0x7fffffff

theorem natural?_concat {cs : List Char} {c : Char} (digit : c.isDigit = true)
    (all : ∀ d ∈ cs, d.isDigit = true) :
    natural? (cs ++ [c]) = some (10 * Nat.ofDigitChars 10 cs 0 + (c.toNat - '0'.toNat)) := by
  have digits : (cs ++ [c]).all Char.isDigit = true := by
    simpa [digit] using all
  rw [natural?, if_pos ⟨by simp, digits⟩, Nat.ofDigitChars_append, Nat.ofDigitChars_cons]
  rfl

theorem natural?_eq_some_iff {cs : List Char} {n : Nat} :
    natural? cs = some n ↔ Digits cs n := by
  constructor
  · intro read
    have all := isDigit_of_natural? read
    -- The last digit is the units, so the induction is from the right.
    induction cs using List.reverseRecOn generalizing n with
    | nil => simp [natural?] at read
    | append_singleton cs c ih =>
        have digit := all c (by simp)
        have all_before : ∀ d ∈ cs, d.isDigit = true :=
          fun d mem => all d (List.mem_append_left _ mem)
        rw [natural?_concat digit all_before] at read
        obtain rfl := Option.some.inj read
        by_cases nonempty : cs = []
        · subst nonempty
          have value : 10 * Nat.ofDigitChars 10 [] 0 + (c.toNat - '0'.toNat) =
              c.toNat - '0'.toNat := Nat.zero_add _
          rw [List.nil_append, value]
          exact .single digit
        · have before : natural? cs = some (Nat.ofDigitChars 10 cs 0) := by
            rw [natural?, if_pos ⟨nonempty, List.all_eq_true.mpr all_before⟩]
          exact .snoc (ih before all_before) digit
  · intro digits
    induction digits with
    | @single c digit =>
        have value : 10 * Nat.ofDigitChars 10 [] 0 + (c.toNat - '0'.toNat) =
            c.toNat - '0'.toNat := Nat.zero_add _
        have read := @natural?_concat [] c digit (by simp)
        rwa [List.nil_append, value] at read
    | @snoc cs n c _ digit ih =>
        have value : n = Nat.ofDigitChars 10 cs 0 := by
          unfold natural? at ih
          split at ih
          · exact (Option.some.inj ih).symm
          · cases ih
        rw [natural?_concat digit (isDigit_of_natural? ih), value]

theorem Digits.head_isDigit {cs : List Char} {n : Nat} (h : Digits cs n) :
    ∀ c ∈ cs.head?, c.isDigit = true :=
  fun c mem => isDigit_of_natural? (natural?_eq_some_iff.mpr h) c (List.mem_of_mem_head? mem)

theorem integer?_eq_some_iff {cs : List Char} {n : Int} :
    integer? cs = some n ↔ SignedDecimal cs n := by
  constructor
  · intro h
    rw [integer?.eq_def] at h
    split at h <;> obtain ⟨m, read, rfl⟩ := Option.map_eq_some_iff.mp h
    · exact .plus (natural?_eq_some_iff.mp read)
    · exact .minus (natural?_eq_some_iff.mp read)
    · exact .unsigned (natural?_eq_some_iff.mp read)
  · intro h
    cases h with
    | unsigned digits =>
        rw [integer?_eq_natural? digits.head_isDigit, natural?_eq_some_iff.mpr digits]
        rfl
    | plus digits => rw [integer?, natural?_eq_some_iff.mpr digits, Option.map_some]
    | minus digits => rw [integer?, natural?_eq_some_iff.mpr digits, Option.map_some]

theorem integerWithin?_eq_some_iff_decimal {least greatest n : Int} {cs : List Char} :
    integerWithin? least greatest cs = some n ↔ DecimalWithin least greatest cs n := by
  rw [integerWithin?_eq_some_iff, integer?_eq_some_iff]
  exact ⟨fun h => ⟨h.1, h.2.1, h.2.2⟩, fun h => ⟨h.signed, h.lower, h.upper⟩⟩

theorem integerWithin?_eq_none_iff {least greatest : Int} {cs : List Char} :
    integerWithin? least greatest cs = none ↔ ∀ n, ¬ DecimalWithin least greatest cs n := by
  simp only [Option.eq_none_iff_forall_ne_some, ne_eq, integerWithin?_eq_some_iff_decimal]

end Numeral

namespace Precedence

open Numeral

theorem bind_ofInt?_eq_some_iff {cs : List Char} {p : Precedence} :
    (integer? cs).bind ofInt? = some p ↔ Decimal32 cs p.value := by
  simp only [Option.bind_eq_some_iff, integer?_eq_some_iff, ofInt?_eq_some_iff]
  constructor
  · rintro ⟨n, signed, rfl⟩
    exact ⟨signed, p.inRange.1, p.inRange.2⟩
  · intro decimal
    exact ⟨p.value, decimal.signed, rfl⟩

theorem bind_ofInt?_eq_none_iff {cs : List Char} :
    (integer? cs).bind ofInt? = none ↔ ∀ n, ¬ Decimal32 cs n := by
  simp only [Option.eq_none_iff_forall_ne_some, ne_eq, bind_ofInt?_eq_some_iff]
  constructor
  · intro none_read n decimal
    exact none_read ⟨n, decimal.lower, decimal.upper⟩ decimal
  · exact fun no_integer p => no_integer p.value

end Precedence

open Numeral

/-! ### Functions -/

namespace FunctionSymbol

variable {text : String}

/-- The function that a text describes, or the reason why it describes none. -/
inductive Verdict (text : String) : Except SymbolError FunctionSymbol → Prop
  | parts : ':' ∉ text.toList → Verdict text (.error (.malformed text .functionParts))
  | arity {name arity : List Char} : text.toList = name ++ ':' :: arity → ':' ∉ name →
      (∀ n, ¬ Decimal64 arity n) → Verdict text (.error (.malformed text .arity))
  | negativeArity {name arity : List Char} {n : Int} : text.toList = name ++ ':' :: arity →
      ':' ∉ name → Decimal64 arity n → n < 0 →
      Verdict text (.error (.negativeArity (String.ofList name) n))
  | emptyName {arity : List Char} {n : Int} : text.toList = ':' :: arity → Decimal64 arity n →
      0 ≤ n → Verdict text (.error .emptyName)
  | described {f : FunctionSymbol} {arity : List Char} :
      text.toList = f.name.toList ++ ':' :: arity → ':' ∉ f.name.toList →
      Decimal64 arity f.arity.toNat → Verdict text (.ok f)

theorem exists_verdict (text : String) : ∃ r, Verdict text r := by
  cases parts : Text.splitFirst ':' text.toList with
  | none => exact ⟨_, .parts (Text.splitFirst_eq_none_iff.mp parts)⟩
  | some both =>
      obtain ⟨name, arity⟩ := both
      obtain ⟨text_eq, no_colon⟩ := Text.splitFirst_eq_some_iff.mp parts
      by_cases integer : ∃ n, Decimal64 arity n
      · obtain ⟨n, decimal⟩ := integer
        rcases Int.lt_or_le n 0 with negative | nonneg
        · exact ⟨_, .negativeArity text_eq no_colon decimal negative⟩
        · by_cases empty : name = []
          · subst empty
            exact ⟨_, .emptyName text_eq decimal nonneg⟩
          · have upper := decimal.upper
            have value : ((UInt64.ofNat n.toNat).toNat : Int) = n := by
              rw [UInt64.toNat_ofNat']
              omega
            let f : FunctionSymbol :=
              ⟨String.ofList name, UInt64.ofNat n.toNat, by simpa using empty⟩
            refine ⟨.ok f, @Verdict.described text f arity ?_ ?_ ?_⟩
            · rw [String.toList_ofList, text_eq]
            · rwa [String.toList_ofList]
            · rwa [value]
      · exact ⟨_, .arity text_eq no_colon (not_exists.mp integer)⟩

theorem ofDescription_of_decimal {name arity : List Char} {n : Int}
    (text_eq : text.toList = name ++ ':' :: arity) (no_colon : ':' ∉ name)
    (decimal : Decimal64 arity n) :
    ofDescription text =
      if n < 0 then .error (.negativeArity (String.ofList name) n)
      else make (String.ofList name) (UInt64.ofNat n.toNat) := by
  rw [ofDescription, text_eq, Text.splitFirst_append no_colon]
  dsimp only
  rw [integer64?, integerWithin?_eq_some_iff_decimal.mpr decimal]

theorem Verdict.ofDescription_eq {r : Except SymbolError FunctionSymbol} (h : Verdict text r) :
    ofDescription text = r := by
  cases h with
  | parts no_colon =>
      rw [ofDescription, Text.splitFirst_eq_none_iff.mpr no_colon]
  | arity text_eq no_colon no_integer =>
      rw [ofDescription, text_eq, Text.splitFirst_append no_colon]
      dsimp only
      rw [integer64?, integerWithin?_eq_none_iff.mpr no_integer]
  | negativeArity text_eq no_colon decimal negative =>
      rw [ofDescription_of_decimal text_eq no_colon decimal, if_pos negative]
  | emptyName text_eq decimal nonneg =>
      rw [@ofDescription_of_decimal text [] _ _ text_eq List.not_mem_nil decimal,
        if_neg (Int.not_lt.mpr nonneg)]
      rfl
  | described text_eq no_colon decimal =>
      exact ofDescription_eq_ok_iff.mpr
        ⟨_, text_eq, no_colon, integerWithin?_eq_some_iff_decimal.mpr decimal⟩

theorem verdict_ofDescription (text : String) : Verdict text (ofDescription text) := by
  obtain ⟨r, verdict⟩ := exists_verdict text
  rwa [verdict.ofDescription_eq]

end FunctionSymbol

/-! ### Operators -/

theorem count_of_splitFirst {cs before after : List Char} {separator : Char}
    (h : Text.splitFirst separator cs = some (before, after)) :
    cs.count separator = after.count separator + 1 := by
  obtain ⟨rfl, out⟩ := Text.splitFirst_eq_some_iff.mp h
  rw [List.count_append, List.count_eq_zero_of_not_mem out, List.count_cons_self, Nat.zero_add]

namespace OperatorSymbol

variable {text : String}

/-- Whether a text is four parts with colons between them, of which only the last may hold more. -/
structure Parts (text : String) (name arity associativity precedence : List Char) : Prop where
  text_eq : text.toList = name ++ ':' :: (arity ++ ':' :: (associativity ++ ':' :: precedence))
  name_no_colon : ':' ∉ name
  arity_no_colon : ':' ∉ arity
  associativity_no_colon : ':' ∉ associativity

theorem parts?_eq_some_iff_parts {name arity associativity precedence : List Char} :
    parts? text.toList = some (name, arity, associativity, precedence) ↔
      Parts text name arity associativity precedence := by
  rw [parts?_eq_some_iff]
  exact ⟨fun h => ⟨h.1, h.2.1, h.2.2.1, h.2.2.2⟩, fun h => ⟨h.1, h.2, h.3, h.4⟩⟩

theorem parts?_eq_none_iff {cs : List Char} : parts? cs = none ↔ cs.count ':' < 3 := by
  cases first : Text.splitFirst ':' cs with
  | none =>
      have none_left := List.count_eq_zero_of_not_mem (Text.splitFirst_eq_none_iff.mp first)
      simp [parts?, first, none_left]
  | some part =>
      have count := count_of_splitFirst first
      cases second : Text.splitFirst ':' part.2 with
      | none =>
          have none_left := List.count_eq_zero_of_not_mem (Text.splitFirst_eq_none_iff.mp second)
          simp [parts?, first, second, count, none_left]
      | some part' =>
          have count' := count_of_splitFirst second
          cases third : Text.splitFirst ':' part'.2 with
          | none =>
              have none_left := List.count_eq_zero_of_not_mem (Text.splitFirst_eq_none_iff.mp third)
              simp [parts?, first, second, third, count, count', none_left]
          | some part'' =>
              have count'' := count_of_splitFirst third
              simp [parts?, first, second, third, count, count', count'']

/-- The operator that a text describes, or the reason why it describes none. -/
inductive Verdict (text : String) : Except SymbolError OperatorSymbol → Prop
  | parts : text.toList.count ':' < 3 → Verdict text (.error (.malformed text .operatorParts))
  | arity {name arity associativity precedence : List Char} :
      Parts text name arity associativity precedence → (∀ n, ¬ Decimal64 arity n) →
      Verdict text (.error (.malformed text .arity))
  | associativity {name arity associativity precedence : List Char} {n : Int} :
      Parts text name arity associativity precedence → Decimal64 arity n →
      associativity ≠ ['l'] → associativity ≠ ['r'] →
      Verdict text (.error (.malformed text .associativity))
  | precedence {name arity precedence : List Char} {n : Int} {a : Associativity} :
      Parts text name arity [a.letter] precedence → Decimal64 arity n →
      (∀ m, ¬ Decimal32 precedence m) → Verdict text (.error (.malformed text .precedence))
  | emptyName {arity precedence : List Char} {n m : Int} {a : Associativity} :
      Parts text [] arity [a.letter] precedence → Decimal64 arity n → Decimal32 precedence m →
      Verdict text (.error .emptyName)
  | operatorArity {name arity precedence : List Char} {n m : Int} {a : Associativity} :
      Parts text name arity [a.letter] precedence → Decimal64 arity n → Decimal32 precedence m →
      name ≠ [] → n ≠ 1 → n ≠ 2 → Verdict text (.error (.operatorArity (String.ofList name) n))
  | described {o : OperatorSymbol} {arity precedence : List Char} :
      Parts text o.name.toList arity [o.associativity.letter] precedence →
      Decimal64 arity o.operands.count → Decimal32 precedence o.precedence.value →
      Verdict text (.ok o)

theorem exists_verdict (text : String) : ∃ r, Verdict text r := by
  cases split : parts? text.toList with
  | none => exact ⟨_, .parts (parts?_eq_none_iff.mp split)⟩
  | some four =>
      obtain ⟨name, arity, associativity, precedence⟩ := four
      have parts := parts?_eq_some_iff_parts.mp split
      by_cases integer : ∃ n, Decimal64 arity n
      case neg => exact ⟨_, .arity parts (not_exists.mp integer)⟩
      obtain ⟨n, decimal⟩ := integer
      by_cases letter : ∃ a : Associativity, associativity = [a.letter]
      case neg =>
        have not_letter := not_exists.mp letter
        exact ⟨_, .associativity parts decimal (not_letter .left) (not_letter .right)⟩
      obtain ⟨a, rfl⟩ := letter
      by_cases bounded : ∃ m, Decimal32 precedence m
      case neg => exact ⟨_, .precedence parts decimal (not_exists.mp bounded)⟩
      obtain ⟨m, decimal'⟩ := bounded
      by_cases empty : name = []
      case pos =>
        subst empty
        exact ⟨_, .emptyName parts decimal decimal'⟩
      by_cases count : ∃ operands : Operands, n = operands.count
      case neg =>
        have not_count := not_exists.mp count
        exact ⟨_, .operatorArity parts decimal decimal' empty (not_count .one) (not_count .two)⟩
      obtain ⟨operands, rfl⟩ := count
      let o : OperatorSymbol :=
        ⟨String.ofList name, operands, a, ⟨m, decimal'.lower, decimal'.upper⟩, by simpa using empty⟩
      refine ⟨.ok o, @Verdict.described text o arity precedence ?_ decimal decimal'⟩
      rwa [String.toList_ofList]

theorem ofDescription_of_decimal {name arity precedence : List Char} {n : Int} {a : Associativity}
    (parts : Parts text name arity [a.letter] precedence) (decimal : Decimal64 arity n) :
    ofDescription text = ((integer? precedence).bind Precedence.ofInt?).elim
      (.error (.malformed text .precedence)) (make (String.ofList name) n a) := by
  rw [ofDescription, parts?_eq_some_iff_parts.mpr parts]
  dsimp only
  rw [integer64?, integerWithin?_eq_some_iff_decimal.mpr decimal, Associativity.ofText?_letter]
  cases (integer? precedence).bind Precedence.ofInt? <;> rfl

theorem ofDescription_eq_make {name arity precedence : List Char} {n m : Int} {a : Associativity}
    (parts : Parts text name arity [a.letter] precedence) (decimal : Decimal64 arity n)
    (decimal' : Decimal32 precedence m) :
    ofDescription text =
      make (String.ofList name) n a ⟨m, decimal'.lower, decimal'.upper⟩ := by
  let p : Precedence := ⟨m, decimal'.lower, decimal'.upper⟩
  have read : (integer? precedence).bind Precedence.ofInt? = some p :=
    Precedence.bind_ofInt?_eq_some_iff.mpr decimal'
  rw [ofDescription_of_decimal parts decimal, read, Option.elim_some]

theorem Verdict.ofDescription_eq {r : Except SymbolError OperatorSymbol} (h : Verdict text r) :
    ofDescription text = r := by
  cases h with
  | parts few => rw [ofDescription, parts?_eq_none_iff.mpr few]
  | arity parts no_integer =>
      rw [ofDescription, parts?_eq_some_iff_parts.mpr parts]
      dsimp only
      rw [integer64?, integerWithin?_eq_none_iff.mpr no_integer]
  | associativity parts decimal not_left not_right =>
      rw [ofDescription, parts?_eq_some_iff_parts.mpr parts]
      dsimp only
      rw [integer64?, integerWithin?_eq_some_iff_decimal.mpr decimal]
      dsimp only
      rw [Associativity.ofText?, if_neg not_left, if_neg not_right]
  | precedence parts decimal no_integer =>
      rw [ofDescription_of_decimal parts decimal,
        Precedence.bind_ofInt?_eq_none_iff.mpr no_integer, Option.elim_none]
  | emptyName parts decimal decimal' =>
      rw [ofDescription_eq_make parts decimal decimal']
      rfl
  | operatorArity parts decimal decimal' nonempty not_one not_two =>
      rw [ofDescription_eq_make parts decimal decimal', make, dif_neg (by simpa using nonempty),
        Operands.ofInt?, if_neg not_one, if_neg not_two]
  | described parts decimal decimal' =>
      exact ofDescription_eq_ok_iff.mpr ⟨_, _, parts.text_eq, parts.name_no_colon,
        integerWithin?_eq_some_iff_decimal.mpr decimal, integer?_eq_some_iff.mpr decimal'.signed⟩

theorem verdict_ofDescription (text : String) : Verdict text (ofDescription text) := by
  obtain ⟨r, verdict⟩ := exists_verdict text
  rwa [verdict.ofDescription_eq]

end OperatorSymbol

/-- Reading a text as the description of a function or of an operator gives the verdict on it, and
there is no other verdict. -/
theorem ofDescription_eq_iff_verdict (text : String) :
    (∀ r, FunctionSymbol.ofDescription text = r ↔ FunctionSymbol.Verdict text r) ∧
      ∀ r, OperatorSymbol.ofDescription text = r ↔ OperatorSymbol.Verdict text r := by
  constructor
  · intro r
    constructor
    · rintro rfl
      exact FunctionSymbol.verdict_ofDescription text
    · exact FunctionSymbol.Verdict.ofDescription_eq
  · intro r
    constructor
    · rintro rfl
      exact OperatorSymbol.verdict_ofDescription text
    · exact OperatorSymbol.Verdict.ofDescription_eq

/-- Of several things that are wrong with a text the first is reported: it has no name, and three
operands are too many. -/
example : OperatorSymbol.ofDescription ":+3:x:1:1" =
    .error (.malformed ":+3:x:1:1" .associativity) := by
  decide +kernel

/-! ### Reading descriptions back -/

theorem FunctionSymbol.ofDescription_description_of_large {f : FunctionSymbol}
    (no_colon : ':' ∉ f.name.toList) (large : 0x7fffffffffffffff < f.arity.toNat) :
    ofDescription f.description = .error (.malformed f.description .arity) := by
  have text_eq : f.description.toList = f.name.toList ++ ':' :: integerText f.arity.toNat := by
    rw [description, String.toList_ofList]
  have no_integer : ∀ n, ¬ Decimal64 (integerText f.arity.toNat) n := by
    intro n decimal
    have read := integer?_eq_some_iff.mpr decimal.signed
    rw [integer?_integerText] at read
    have value : (f.arity.toNat : Int) = n := Option.some.inj read
    have upper := decimal.upper
    omega
  exact (Verdict.arity text_eq no_colon no_integer).ofDescription_eq

/-- A symbol whose name has no colon is read back from its own description, unless it is a function
whose arity needs 64 bits; the description of such a one is refused. -/
theorem ofDescription_description_of_make {name : String} (no_colon : ':' ∉ name.toList) :
    (∀ (arity : UInt64) (f : FunctionSymbol), FunctionSymbol.make name arity = .ok f →
      (arity.toNat ≤ 0x7fffffffffffffff → FunctionSymbol.ofDescription f.description = .ok f) ∧
      (0x7fffffffffffffff < arity.toNat → FunctionSymbol.ofDescription f.description =
        .error (.malformed f.description .arity))) ∧
    ∀ (arity : Int) (associativity : Associativity) (precedence : Precedence) (o : OperatorSymbol),
      OperatorSymbol.make name arity associativity precedence = .ok o →
        OperatorSymbol.ofDescription o.description = .ok o := by
  constructor
  · intro arity f made
    obtain ⟨rfl, rfl⟩ := FunctionSymbol.make_eq_ok_iff.mp made
    constructor
    · exact fun small => FunctionSymbol.Describable.ofDescription_description ⟨no_colon, small⟩
    · exact FunctionSymbol.ofDescription_description_of_large no_colon
  · intro arity associativity precedence o made
    obtain ⟨rfl, -, -, -⟩ := OperatorSymbol.make_eq_ok_iff.mp made
    exact OperatorSymbol.Describable.ofDescription_description no_colon

/-- The greatest arity that is read back, the least that is not, and an operator whose name looks
like other parts of its description. -/
theorem ofDescription_description_of_make_greatest :
    (':' ∉ "l 2".toList ∧ ∃ f, FunctionSymbol.make "l 2" 0x7fffffffffffffff = .ok f ∧
      FunctionSymbol.ofDescription f.description = .ok f) ∧
    (':' ∉ "f".toList ∧ ∃ f, FunctionSymbol.make "f" 0x8000000000000000 = .ok f ∧
      FunctionSymbol.ofDescription f.description = .error (.malformed f.description .arity)) ∧
    (':' ∉ "-1 r".toList ∧
      ∃ o, OperatorSymbol.make "-1 r" 2 .left ⟨-0x80000000, by decide⟩ = .ok o ∧
        OperatorSymbol.ofDescription o.description = .ok o) := by
  have plain : ':' ∉ "l 2".toList := by decide
  have plain' : ':' ∉ "f".toList := by decide
  have plain'' : ':' ∉ "-1 r".toList := by decide
  refine ⟨⟨plain, _, rfl, ?_⟩, ⟨plain', _, rfl, ?_⟩, plain'', _, rfl, ?_⟩
  · exact ((ofDescription_description_of_make plain).1 _ _ rfl).1 (by decide)
  · exact ((ofDescription_description_of_make plain').1 _ _ rfl).2 (by decide)
  · exact (ofDescription_description_of_make plain'').2 2 .left ⟨-0x80000000, by decide⟩ _ rfl

/-- The description of a function may describe no function. -/
theorem unread_arity :
    ¬ ∀ (name : String) (arity : UInt64) (f : FunctionSymbol),
      FunctionSymbol.make name arity = .ok f → ':' ∉ name.toList →
        FunctionSymbol.ofDescription f.description = .ok f := by
  intro read_back
  have name_ne : "f" ≠ "" := by decide
  have no_colon : ':' ∉ "f".toList := by decide
  have described := read_back "f" 0x8000000000000000 _ (FunctionSymbol.make_eq_ok name_ne) no_colon
  have bounded : (0x8000000000000000 : UInt64).toNat ≤ 0x7fffffffffffffff :=
    (FunctionSymbol.describable_of_ofDescription described).arity_le
  exact absurd bounded (by decide)

end ReversePolish

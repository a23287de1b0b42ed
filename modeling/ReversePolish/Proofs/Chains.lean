import ReversePolish.Proofs.Acceptance
import ReversePolish.Proofs.Grouping

/-! # Numbers and binary operators

An expression of numbers and binary operators is accepted if they alternate, starting and ending
with a number; nothing else is but the empty expression and such a chain after one right-associative
operator (`parse_alternating`).  That no number comes right after another one is not checked: they
are never read so.

A chain is the listing of exactly one formula that respects precedence.  `Formula.prepend` builds
the formula from the right end of the chain, and there is no other one since a formula of numbers
and binary operators can be told from its postorder, read from the right (`eq_of_postorder`). -/

namespace ReversePolish

/-- Whether a token is a number. -/
def Token.isNumber : Token → Bool
  | .number _ _ => true
  | _ => false

theorem Token.exists_of_isNumber {a : Token} (number : a.isNumber = true) :
    ∃ literal value, a = .number literal value := by
  rcases a with ⟨literal, value⟩ | _
  · exact ⟨literal, value, rfl⟩
  · cases number

theorem Token.exists_of_isBinaryOperator {a : Token} (operator : a.isBinaryOperator = true) :
    ∃ o, a = .symbol (.operator o) ∧ o.isBinary = true := by
  rcases a with _ | (_ | o | _ | _ | _)
  case symbol.operator => exact ⟨o, rfl, operator⟩
  all_goals cases operator

theorem Token.function_not_plain {f : FunctionSymbol} :
    ¬((Token.symbol (.function f)).isNumber = true ∨
      (Token.symbol (.function f)).isBinaryOperator = true) := by
  simp [isNumber, isBinaryOperator]

theorem Token.opening_not_plain {literal : String} :
    ¬((Token.symbol (.opening literal)).isNumber = true ∨
      (Token.symbol (.opening literal)).isBinaryOperator = true) := by
  simp [isNumber, isBinaryOperator]

/-- Numbers with a binary operator between every two neighbours. -/
inductive Alternating : List Token → Prop
  | single {literal value} : Alternating [.number literal value]
  | link {literal value o tokens} : o.isBinary = true → Alternating tokens →
      Alternating (.number literal value :: .symbol (.operator o) :: tokens)

/-- Formulas with no nodes but numbers and binary operators. -/
inductive Formula.IsBinaryTree : Formula → Prop
  | number {literal value} : IsBinaryTree (.number literal value)
  | binary {left o two right} : IsBinaryTree left → IsBinaryTree right →
      IsBinaryTree (.binary left o two right)

/-- The formula with one more operand and operator before it, where the operator goes down to where
it no longer is popped. -/
def Formula.prepend (first : Formula) (o : OperatorSymbol) (two : o.isBinary = true) :
    Formula → Formula
  | .binary left s two' right =>
    if s.pops o then .binary (prepend first o two left) s two' right
    else .binary first o two (.binary left s two' right)
  | t => .binary first o two t

variable {tokens : List Token}

theorem Alternating.exists_number (h : Alternating tokens) :
    ∃ literal value rest, tokens = .number literal value :: rest := by
  cases h
  all_goals exact ⟨_, _, _, rfl⟩

/-! ### The formula of a chain -/

namespace Formula

theorem listing_prepend (first : Formula) {o : OperatorSymbol} (two : o.isBinary = true) :
    ∀ t : Formula, (prepend first o two t).listing =
      first.listing ++ .symbol (.operator o) :: t.listing
  | .binary left s two' right => by
      have inner := listing_prepend first two left
      rw [prepend]
      split
      · rw [listing, inner, listing, List.append_assoc, List.cons_append]
      · rw [listing]
  | .number _ _ | .constant _ _ | .bracketed _ _ _ | .call _ _ _ _ _ | .trailing _ _ _
  | .leading _ _ _ => rfl

theorem IsBinaryTree.prepend {first t : Formula} {o : OperatorSymbol} {two : o.isBinary = true}
    (plain : first.IsBinaryTree) (h : t.IsBinaryTree) : (prepend first o two t).IsBinaryTree := by
  induction h with
  | number => exact binary plain number
  | binary left right ih _ =>
      rw [Formula.prepend]
      split
      · exact binary ih right
      · exact binary plain (binary left right)

theorem top?_prepend {first : Formula} {o : OperatorSymbol} {two : o.isBinary = true}
    (t : Formula) : ∀ s ∈ (prepend first o two t).top?, s = o ∨ s ∈ t.top? := by
  intro s mem
  unfold prepend at mem
  split at mem
  · split at mem
    · exact Or.inr mem
    · exact Or.inl (Option.some.inj mem).symm
  · exact Or.inl (Option.some.inj mem).symm

theorem respectsPrecedence_prepend {first t : Formula} {o : OperatorSymbol}
    {two : o.isBinary = true} (first_respects : first.RespectsPrecedence)
    (pops : ∀ s ∈ first.top?, o.pops s = true) (plain : t.IsBinaryTree)
    (respects : t.RespectsPrecedence) : (prepend first o two t).RespectsPrecedence := by
  induction plain with
  | number =>
      refine ⟨first_respects, trivial, pops, fun x mem => ?_⟩
      cases mem
  | @binary left s _ right _ _ ih _ =>
      obtain ⟨left_respects, right_respects, left_pops, right_kept⟩ := respects
      rw [prepend]
      split
      · next popped =>
        refine ⟨ih left_respects, right_respects, fun x mem => ?_, right_kept⟩
        rcases top?_prepend left x mem with rfl | mem
        · exact popped
        · exact left_pops x mem
      · next kept =>
        refine ⟨first_respects, ⟨left_respects, right_respects, left_pops, right_kept⟩, pops, ?_⟩
        intro x mem
        obtain rfl : s = x := Option.some.inj mem
        simpa using kept

theorem exists_of_alternating (h : Alternating tokens) :
    ∃ t : Formula, t.IsBinaryTree ∧ t.listing = tokens ∧ t.RespectsPrecedence := by
  induction h with
  | @single literal value => exact ⟨.number literal value, .number, rfl, trivial⟩
  | @link literal value o tokens two _ ih =>
      obtain ⟨t, plain, rfl, respects⟩ := ih
      have pops : ∀ s ∈ (number literal value).top?, o.pops s = true := by
        intro s mem
        cases mem
      exact ⟨prepend (.number literal value) o two t, IsBinaryTree.number.prepend plain,
        listing_prepend _ two t, respectsPrecedence_prepend trivial pops plain respects⟩

/-! ### There is no other one -/

theorem isBinaryTree_of_listing : ∀ t : Formula,
    (∀ a ∈ t.listing, a.isNumber = true ∨ a.isBinaryOperator = true) → t.IsBinaryTree
  | .number _ _, _ => .number
  | .binary left o two right, h => by
      refine .binary (isBinaryTree_of_listing left fun a mem => h a ?_)
        (isBinaryTree_of_listing right fun a mem => h a ?_)
      · exact List.mem_append_left _ mem
      · exact List.mem_append_right _ (List.mem_cons_of_mem _ mem)
  | .constant _ _, h => absurd (h _ List.mem_cons_self) Token.function_not_plain
  | .bracketed _ _ _, h => absurd (h _ List.mem_cons_self) Token.opening_not_plain
  | .call _ _ _ _ _, h => absurd (h _ List.mem_cons_self) Token.function_not_plain
  | .trailing operand o one, h => by
      have mem : .symbol (.operator o) ∈ operand.listing ++ [.symbol (.operator o)] :=
        List.mem_append_right _ List.mem_cons_self
      have two : o.isBinary = true := (h _ mem).resolve_left Bool.false_ne_true
      rw [OperatorSymbol.isUnary_eq_false_of_isBinary two] at one
      cases one
  | .leading o one _, h => by
      have two : o.isBinary = true := (h _ List.mem_cons_self).resolve_left Bool.false_ne_true
      rw [OperatorSymbol.isUnary_eq_false_of_isBinary two] at one
      cases one

/-- Formulas of numbers and binary operators with one postorder are equal, also where the postorder
is only what comes last. -/
theorem eq_of_postorder {t t' : Formula} {before before' : List Token} (plain : t.IsBinaryTree)
    (plain' : t'.IsBinaryTree) (eq : before ++ t.postorder = before' ++ t'.postorder) :
    t = t' ∧ before = before' := by
  -- With any tokens before it, the right operand is cut off first and then the left one.
  induction plain generalizing t' before before' with
  | number =>
      cases plain' with
      | number =>
          obtain ⟨rfl, token_eq⟩ := List.append_singleton_inj.mp eq
          obtain ⟨rfl, rfl⟩ := Token.number.inj token_eq
          exact ⟨rfl, rfl⟩
      | binary =>
          rw [postorder, postorder, ← List.append_assoc before'] at eq
          cases (List.append_singleton_inj.mp eq).2
  | binary _ _ left_ih right_ih =>
      cases plain' with
      | number =>
          rw [postorder, postorder, ← List.append_assoc before] at eq
          cases (List.append_singleton_inj.mp eq).2
      | binary left' right' =>
          rw [postorder, postorder, ← List.append_assoc before, ← List.append_assoc before'] at eq
          obtain ⟨operands_eq, operator_eq⟩ := List.append_singleton_inj.mp eq
          rw [← List.append_assoc before, ← List.append_assoc before'] at operands_eq
          obtain ⟨rfl, left_eq⟩ := right_ih right' operands_eq
          obtain ⟨rfl, rfl⟩ := left_ih left' left_eq
          injection operator_eq with symbol_eq
          injection symbol_eq with operator_eq
          subst operator_eq
          exact ⟨rfl, rfl⟩

/-- What the stack makes of a listing tells which formula it lists, if that respects precedence. -/
theorem eq_of_listing {t t' : Formula} (plain : t.IsBinaryTree) (plain' : t'.IsBinaryTree)
    (respects : t.RespectsPrecedence) (respects' : t'.RespectsPrecedence)
    (eq : t.listing = t'.listing) : t = t' := by
  obtain ⟨sent, after, run, -, output_eq⟩ := exists_run respects
  obtain ⟨sent', after', run', -, output_eq'⟩ := exists_run respects'
  rw [eq] at run
  obtain ⟨rfl, rfl⟩ := run.unique run'
  have postorder_eq : [] ++ t.postorder = [] ++ t'.postorder := output_eq.symm.trans output_eq'
  exact (eq_of_postorder plain plain' postorder_eq).1

theorem IsBinaryTree.operandFirst {t : Formula} (h : t.IsBinaryTree) : t.OperandFirst := by
  induction h with
  | number => trivial
  | binary _ _ left_ih right_ih => exact ⟨left_ih, right_ih⟩

end Formula

/-! ### Numbers and binary operators in any order -/

namespace Adjacency

theorem ends_of_isBinaryOperator {a : Token} (operator : a.isBinaryOperator = true) :
    ends a = false := by
  obtain ⟨o, rfl, two⟩ := Token.exists_of_isBinaryOperator operator
  rw [ends, OperatorSymbol.isUnary_eq_false_of_isBinary two, Bool.false_and]

theorem expectsOperand_of_isBinaryOperator {a : Token} (operator : a.isBinaryOperator = true) :
    expectsOperand a = true := by
  obtain ⟨o, rfl, two⟩ := Token.exists_of_isBinaryOperator operator
  exact two

theorem operand_of_fits {a b c : Token} (operator : b.isBinaryOperator = true)
    (fit : fits a b c = true) : expectsOperand a = false ∧ refusesOperand c = false := by
  obtain ⟨o, rfl, two⟩ := Token.exists_of_isBinaryOperator operator
  simpa [fits, two] using fit

end Adjacency

theorem Alternating.mem (h : Alternating tokens) :
    ∀ a ∈ tokens, a.isNumber = true ∨ a.isBinaryOperator = true := by
  induction h with
  | single => simp [Token.isNumber]
  | link two _ ih =>
      intro a mem
      rcases List.mem_cons.mp mem with rfl | mem
      · exact Or.inl rfl
      · rcases List.mem_cons.mp mem with rfl | mem
        · exact Or.inr two
        · exact ih a mem

theorem depthAfter?_of_plain {depth : Nat}
    (plain : ∀ a ∈ tokens, a.isNumber = true ∨ a.isBinaryOperator = true) :
    depthAfter? depth tokens = some depth := by
  induction tokens with
  | nil => cases depth <;> rfl
  | cons a tokens ih =>
      have later := ih fun b mem => plain b (List.mem_cons_of_mem _ mem)
      rcases plain a List.mem_cons_self with number | operator
      · obtain ⟨literal, value, rfl⟩ := Token.exists_of_isNumber number
        cases depth <;> exact later
      · obtain ⟨o, rfl, -⟩ := Token.exists_of_isBinaryOperator operator
        cases depth <;> exact later

theorem callsOpen_of_plain
    (plain : ∀ a ∈ tokens, a.isNumber = true ∨ a.isBinaryOperator = true) : CallsOpen tokens := by
  induction tokens with
  | nil => trivial
  | cons a tokens ih =>
      have later := ih fun b mem => plain b (List.mem_cons_of_mem _ mem)
      rcases plain a List.mem_cons_self with number | operator
      · obtain ⟨literal, value, rfl⟩ := Token.exists_of_isNumber number
        exact later
      · obtain ⟨o, rfl, -⟩ := Token.exists_of_isBinaryOperator operator
        exact later

theorem exists_run_of_plain
    (plain : ∀ a ∈ tokens, a.isNumber = true ∨ a.isBinaryOperator = true) :
    ∃ sent after, Stack.Run [] (place 0 tokens) sent after ∧ ∀ p ∈ after, p.isOpening = false := by
  obtain ⟨sent, after, run, covered⟩ := Stack.exists_run_of_depthAfter?
    (callsOpen_of_plain plain) (depthAfter?_of_plain plain) (Or.inl Stack.Covered.nil)
  exact ⟨sent, after, run, covered.not_opening⟩

theorem Alternating.firstMisplaced?_eq_none (h : Alternating tokens) :
    Adjacency.firstMisplaced? tokens = none := by
  obtain ⟨t, plain, rfl, -⟩ := Formula.exists_of_alternating h
  have phrase := t.phrase plain.operandFirst
  obtain ⟨last, mem_last, completes⟩ := phrase.last
  refine phrase.firstMisplaced?_eq_none_iff.mpr ⟨fun before o bracket rest eq => ?_,
    fun before f o next rest eq => ?_, fun o eq => ?_⟩
  · exact absurd (h.mem (.symbol (.opening bracket)) (by simp [eq])) Token.opening_not_plain
  · exact absurd (h.mem (.symbol (.function f)) (by simp [eq])) Token.function_not_plain
  · obtain rfl := Option.some.inj (mem_last.symm.trans eq)
    have one : o.isUnary = true := completes
    have two : o.isBinary = true :=
      (h.mem _ (List.mem_of_getLast? eq)).resolve_left Bool.false_ne_true
    rw [OperatorSymbol.isUnary_eq_false_of_isBinary two] at one
    cases one

/-- Numbers and binary operators where no number comes right after another one, every token fits
between its neighbours, and the last one may be that. -/
structure Fitting (tokens : List Token) : Prop where
  plain : ∀ a ∈ tokens, a.isNumber = true ∨ a.isBinaryOperator = true
  apart : tokens.IsChain fun a b => a.isNumber = true → b.isNumber = false
  fits : ∀ before a b c rest, tokens = before ++ a :: b :: c :: rest →
    Adjacency.fits a b c = true
  ends : ∀ a ∈ tokens.getLast?, Adjacency.ends a = true

namespace Fitting

variable {a b : Token}

theorem tail (h : Fitting (a :: tokens)) : Fitting tokens where
  plain b mem := h.plain b (List.mem_cons_of_mem _ mem)
  apart := h.apart.tail
  fits before b c d rest eq := h.fits (a :: before) b c d rest (by rw [eq, List.cons_append])
  ends b mem := by
    refine h.ends b ?_
    rw [Option.mem_def] at mem ⊢
    rw [List.getLast?_cons, mem, Option.getD_some]

theorem numbers_of_operator (h : Fitting (a :: b :: tokens))
    (operator : b.isBinaryOperator = true) :
    a.isNumber = true ∧ ∃ literal value rest, tokens = .number literal value :: rest := by
  rcases tokens with _ | ⟨c, rest⟩
  · have last := h.ends b rfl
    rw [Adjacency.ends_of_isBinaryOperator operator] at last
    cases last
  · obtain ⟨left, right⟩ := Adjacency.operand_of_fits operator (h.fits [] a b c rest rfl)
    constructor
    · refine (h.plain a List.mem_cons_self).resolve_right fun operator' => ?_
      rw [Adjacency.expectsOperand_of_isBinaryOperator operator'] at left
      cases left
    · rcases h.plain c (by simp) with number | operator'
      · obtain ⟨literal, value, rfl⟩ := Token.exists_of_isNumber number
        exact ⟨literal, value, rest, rfl⟩
      · obtain ⟨o, rfl, -⟩ := Token.exists_of_isBinaryOperator operator'
        cases right

theorem alternating : ∀ {tokens : List Token} {literal : String} {value : Numeral.Binary64},
    Fitting (.number literal value :: tokens) → Alternating (.number literal value :: tokens)
  | [], _, _, _ => .single
  | b :: tokens, _, _, h => by
      have not_number := h.apart.rel rfl
      have operator := (h.plain b (by simp)).resolve_left (by simp [not_number])
      obtain ⟨-, literal, value, rest, rfl⟩ := h.numbers_of_operator operator
      obtain ⟨o, rfl, two⟩ := Token.exists_of_isBinaryOperator operator
      exact .link two h.tail.tail.alternating

theorem alternating_tail (h : Fitting (a :: tokens)) (operator : a.isBinaryOperator = true) :
    Alternating tokens := by
  rcases tokens with _ | ⟨b, tokens⟩
  · have last := h.ends a rfl
    rw [Adjacency.ends_of_isBinaryOperator operator] at last
    cases last
  · rcases h.plain b (by simp) with number | operator'
    · obtain ⟨literal, value, rfl⟩ := Token.exists_of_isNumber number
      exact h.tail.alternating
    · obtain ⟨o, rfl, -⟩ := Token.exists_of_isBinaryOperator operator
      cases (h.numbers_of_operator operator').1

end Fitting

theorem Alternating.firstMisplaced?_cons_eq_none {o : OperatorSymbol} (h : Alternating tokens)
    (right : o.isLeftAssociative = false) :
    Adjacency.firstMisplaced? (.symbol (.operator o) :: tokens) = none := by
  obtain ⟨fit, -, ends⟩ := Adjacency.firstMisplaced?_eq_none_iff.mp h.firstMisplaced?_eq_none
  obtain ⟨literal, value, tokens, rfl⟩ := h.exists_number
  refine Adjacency.firstMisplaced?_eq_none_iff.mpr ⟨fun before a b c rest eq => ?_, ?_, ?_⟩
  · rcases before with _ | ⟨d, before⟩
    · obtain ⟨rfl, rfl, rfl⟩ : a = .symbol (.operator o) ∧ b = .number literal value ∧
          tokens = c :: rest := by simp_all
      rfl
    · exact fit before a b c rest (List.cons.inj eq).2
  · intro a mem
    obtain rfl := Option.some.inj mem
    simp [Adjacency.starts, right]
  · intro a mem
    rw [List.getLast?_cons_cons] at mem
    exact ends a mem

/-- The check of neighbours finds nothing in numbers and binary operators exactly if they alternate,
with at most one operator before that, which is right-associative. -/
theorem firstMisplaced?_eq_none_iff_alternating
    (plain : ∀ a ∈ tokens, a.isNumber = true ∨ a.isBinaryOperator = true)
    (apart : tokens.IsChain fun a b => a.isNumber = true → b.isNumber = false) :
    Adjacency.firstMisplaced? tokens = none ↔ tokens = [] ∨ Alternating tokens ∨
      ∃ o rest, tokens = .symbol (.operator o) :: rest ∧ o.isLeftAssociative = false ∧
        Alternating rest := by
  constructor
  · intro fitting
    obtain ⟨fit, start, ends⟩ := Adjacency.firstMisplaced?_eq_none_iff.mp fitting
    have fitting : Fitting tokens := ⟨plain, apart, fit, ends⟩
    rcases tokens with _ | ⟨a, tokens⟩
    · exact Or.inl rfl
    · rcases plain a List.mem_cons_self with number | operator
      · obtain ⟨literal, value, rfl⟩ := Token.exists_of_isNumber number
        exact Or.inr (Or.inl fitting.alternating)
      · have rest := fitting.alternating_tail operator
        obtain ⟨o, rfl, two⟩ := Token.exists_of_isBinaryOperator operator
        have right : o.isLeftAssociative = false := by
          have starts := start _ rfl
          simpa [Adjacency.starts, two] using starts
        exact Or.inr (Or.inr ⟨o, tokens, rfl, right, rest⟩)
  · rintro (rfl | alternating | ⟨o, rest, rfl, right, alternating⟩)
    · rfl
    · exact alternating.firstMisplaced?_eq_none
    · exact alternating.firstMisplaced?_cons_eq_none right

theorem apart_of_tokenize {table : SymbolTable} {expression : String}
    (tokenized : tokenize table expression = .ok tokens) :
    tokens.IsChain fun a b => a.isNumber = true → b.isNumber = false := by
  refine List.isChain_iff_forall_rel_of_append_cons_cons.mpr fun a b before rest eq number => ?_
  obtain ⟨literal, value, rfl⟩ := Token.exists_of_isNumber number
  rcases b with _ | _
  · rw [eq] at tokenized
    cases acceptsNumber_of_tokenize tokenized
  · rfl

/-- An expression of numbers and binary operators is accepted exactly if it is empty, or they
alternate, with at most one right-associative operator before that.  What alternates lists exactly
one formula that respects precedence, and its postorder comes out. -/
theorem parse_alternating :
    (∀ {table : SymbolTable} {expression : String} {tokens : List Token},
      tokenize table expression = .ok tokens →
      (∀ a ∈ tokens, a.isNumber = true ∨ a.isBinaryOperator = true) →
        ((∃ output, parse table expression = .ok output) ↔ tokens = [] ∨ Alternating tokens ∨
          ∃ o rest, tokens = .symbol (.operator o) :: rest ∧ o.isLeftAssociative = false ∧
            Alternating rest)) ∧
    ∀ {tokens : List Token}, Alternating tokens → ∃ t : Formula,
      t.IsBinaryTree ∧ t.listing = tokens ∧ t.RespectsPrecedence ∧
        (∀ t' : Formula, t'.listing = tokens → t'.RespectsPrecedence → t' = t) ∧
          ∀ {table : SymbolTable} {expression : String},
            tokenize table expression = .ok tokens → parse table expression = .ok t.postorder := by
  constructor
  · intro table expression tokens tokenized plain
    obtain ⟨sent, after, run, closed⟩ := exists_run_of_plain plain
    rw [exists_parse_eq_ok_iff_of_run tokenized run closed]
    exact firstMisplaced?_eq_none_iff_alternating plain (apart_of_tokenize tokenized)
  · intro tokens alternating
    obtain ⟨t, plain, rfl, respects⟩ := Formula.exists_of_alternating alternating
    refine ⟨t, plain, rfl, respects, fun t' listing_eq respects' => ?_, fun tokenized => ?_⟩
    · have plain' := Formula.isBinaryTree_of_listing t' (listing_eq ▸ alternating.mem)
      exact Formula.eq_of_listing plain' plain respects' respects listing_eq
    · obtain ⟨sent, after, run, closed, output_eq⟩ := t.exists_run respects
      have outcome := parse_of_run tokenized run closed
      rwa [alternating.firstMisplaced?_eq_none, Option.elim, output_eq] at outcome

/-- The formula of `2-3^4^5*6-7`. -/
def Formula.chained : Formula :=
  ((ofNat 2).difference
    (((ofNat 3).power ((ofNat 4).power (ofNat 5))).product (ofNat 6))).difference (ofNat 7)

theorem parse_chained :
    Alternating Formula.chained.listing ∧
      tokenize .standard "2-3^4^5*6-7" = .ok Formula.chained.listing ∧
        parse .standard "2-3^4^5*6-7" = .ok Formula.chained.postorder ∧
          ∃ output, parse .standard "^2-3^4^5*6-7" = .ok output := by
  have alternating : Alternating Formula.chained.listing :=
    .link rfl (.link rfl (.link rfl (.link rfl (.link rfl .single))))
  have tokenized : tokenize .standard "2-3^4^5*6-7" = .ok Formula.chained.listing := by
    decide +kernel
  have respects : Formula.chained.RespectsPrecedence := by
    simp [Formula.chained, Formula.difference, Formula.product, Formula.power, Formula.ofNat,
      Formula.RespectsPrecedence, Formula.top?]
    decide
  refine ⟨alternating, tokenized, ?_, ?_⟩
  · obtain ⟨t, -, -, -, unique, parsed⟩ := parse_alternating.2 alternating
    rw [unique Formula.chained rfl respects]
    exact parsed tokenized
  · have power_first : tokenize .standard "^2-3^4^5*6-7" =
        .ok (.symbol (.operator .power) :: Formula.chained.listing) := by
      decide +kernel
    refine (parse_alternating.1 power_first ?_).mpr
      (Or.inr (Or.inr ⟨.power, _, rfl, rfl, alternating⟩))
    intro a mem
    rcases List.mem_cons.mp mem with rfl | mem
    · exact Or.inr rfl
    · exact alternating.mem a mem

end ReversePolish

import Mathlib.Data.List.Chain
import ReversePolish.Proofs.Brackets
import ReversePolish.Proofs.Formula
import ReversePolish.Proofs.Reading

/-! # Which well-formed expressions are accepted

Where no operator stands before its only operand, two neighbours in the listing of a formula can be
told by themselves: after a token that completes an operand comes one that goes on, after any other
one that begins an operand (`Formula.phrase`).  So the brackets pair up, and the check of neighbours
can only find the few patterns that it takes for a missing operand.  `parse_formula_iff` says which
these are. -/

namespace ReversePolish

namespace Token

/-- Whether a token completes an operand, where no operator stands before its only operand. -/
def completes : Token → Bool
  | .number _ _ => true
  | .symbol (.function f) => f.isConstant
  | .symbol (.operator o) => o.isUnary
  | .symbol (.closing _) => true
  | _ => false

/-- Whether a token begins an operand. -/
def begins : Token → Bool
  | .number _ _ => true
  | .symbol (.function _) => true
  | .symbol (.opening _) => true
  | _ => false

/-- Whether two tokens may be neighbours in a formula. -/
def joins (a b : Token) : Bool :=
  if a.completes then !b.begins
  else match a with
    | .symbol (.function _) => b.isOpening
    | _ => b.begins

theorem joins_of_completes {a b : Token} (completes : a.completes = true)
    (goes_on : b.begins = false) : a.joins b = true := by
  unfold joins
  rw [if_pos completes, goes_on]
  rfl

end Token

/-- Tokens that begin with an operand, end with one, and have neighbours that may be such. -/
structure Phrase (tokens : List Token) : Prop where
  chain : tokens.IsChain fun a b => a.joins b = true
  first : ∃ a ∈ tokens.head?, a.begins = true
  last : ∃ a ∈ tokens.getLast?, a.completes = true

namespace Phrase

variable {xs ys : List Token} {a : Token}

theorem singleton (begins : a.begins = true) (completes : a.completes = true) : Phrase [a] :=
  ⟨List.isChain_singleton a, ⟨a, rfl, begins⟩, ⟨a, rfl, completes⟩⟩

theorem cons (h : Phrase xs) (begins : a.begins = true) (links : ∀ b ∈ xs.head?, a.joins b = true) :
    Phrase (a :: xs) := by
  obtain ⟨c, last, completes⟩ := h.last
  refine ⟨h.chain.cons links, ⟨a, rfl, begins⟩, ⟨c, ?_, completes⟩⟩
  rw [Option.mem_def] at last ⊢
  rw [List.getLast?_cons, last]
  rfl

/-- A token that goes on may come between two phrases, if it waits for what begins the second. -/
theorem link (h : Phrase xs) (goes_on : a.begins = false) (h' : Phrase ys)
    (links : ∀ b ∈ ys.head?, a.joins b = true) : Phrase (xs ++ a :: ys) := by
  obtain ⟨b, first, begins⟩ := h.first
  obtain ⟨c, last, completes⟩ := h'.last
  obtain ⟨d, inner_last, completed⟩ := h.last
  rw [Option.mem_def] at first last inner_last
  refine ⟨h.chain.append (h'.chain.cons links) ?_, ⟨b, ?_, begins⟩, ⟨c, ?_, completes⟩⟩
  · intro x mem y mem'
    obtain rfl := Option.some.inj (inner_last.symm.trans mem)
    obtain rfl := Option.some.inj mem'
    exact Token.joins_of_completes completed goes_on
  · rw [Option.mem_def, List.head?_append, first]
    rfl
  · rw [Option.mem_def, List.getLast?_append, List.getLast?_cons, last]
    rfl

theorem snoc (h : Phrase xs) (goes_on : a.begins = false) (completes : a.completes = true) :
    Phrase (xs ++ [a]) := by
  obtain ⟨b, first, begins⟩ := h.first
  obtain ⟨d, inner_last, completed⟩ := h.last
  rw [Option.mem_def] at first inner_last
  refine ⟨h.chain.append (List.isChain_singleton a) ?_, ⟨b, ?_, begins⟩, ⟨a, ?_, completes⟩⟩
  · intro x mem y mem'
    obtain rfl := Option.some.inj (inner_last.symm.trans mem)
    obtain rfl := Option.some.inj mem'
    exact Token.joins_of_completes completed goes_on
  · rw [Option.mem_def, List.head?_append, first]
    rfl
  · rw [Option.mem_def, List.getLast?_append]
    rfl

theorem joins_head (h : Phrase xs) (waits : ∀ b : Token, a.joins b = b.begins) :
    ∀ b ∈ xs.head?, a.joins b = true := by
  obtain ⟨c, first, begins⟩ := h.first
  intro b mem
  obtain rfl := Option.some.inj (first.symm.trans mem)
  rw [waits, begins]

end Phrase

mutual

theorem Formula.phrase : ∀ (t : Formula), t.OperandFirst → Phrase t.listing
  | .number literal value, _ => @Phrase.singleton (.number literal value) rfl rfl
  | .constant f nullary, _ => @Phrase.singleton (.symbol (.function f)) rfl nullary
  | .bracketed opening body closing, first => by
      have inner := (body.phrase first).snoc (a := .symbol (.closing closing)) rfl rfl
      exact inner.cons rfl (inner.joins_head fun _ => rfl)
  | .call f positive opening arguments closing, first => by
      have inner := (arguments.phrase first).snoc (a := .symbol (.closing closing)) rfl rfl
      have group := inner.cons (a := .symbol (.opening opening)) rfl
        (inner.joins_head fun _ => rfl)
      refine group.cons rfl fun b mem => ?_
      obtain rfl := Option.some.inj mem
      simp [Token.joins, Token.completes, positive, Token.isOpening]
  | .binary left o two right, ⟨left_first, right_first⟩ => by
      have right := right.phrase right_first
      refine (left.phrase left_first).link rfl right (right.joins_head fun b => ?_)
      simp [Token.joins, Token.completes, OperatorSymbol.isUnary_eq_false_of_isBinary two]
  | .trailing operand o one, first => (operand.phrase first).snoc rfl one
  | .leading _ _ _, first => first.elim

theorem Arguments.phrase : ∀ (a : Arguments), a.OperandFirst → Phrase a.listing
  | .last argument, first => argument.phrase first
  | .more argument divider rest, ⟨first, rest_first⟩ => by
      have rest := rest.phrase rest_first
      exact (argument.phrase first).link rfl rest (rest.joins_head fun _ => rfl)

end

/-! ### Brackets pair up -/

mutual

theorem Formula.depthAfter?_listing : ∀ (t : Formula) (depth : Nat) (rest : List Token),
    depthAfter? depth (t.listing ++ rest) = depthAfter? depth rest
  | .number _ _, depth, rest => by cases depth <;> rfl
  | .constant _ _, depth, rest => by cases depth <;> rfl
  | .bracketed opening body closing, depth, rest => by
      have inner := body.depthAfter?_listing (depth + 1) (.symbol (.closing closing) :: rest)
      rw [Formula.listing, List.cons_append, List.append_assoc, depthAfter?]
      exact inner
  | .call f _ opening arguments closing, depth, rest => by
      have inner := arguments.depthAfter?_listing depth (.symbol (.closing closing) :: rest)
      rw [Formula.listing, List.cons_append, List.cons_append, List.append_assoc]
      cases depth <;> exact inner
  | .binary left o _ right, depth, rest => by
      have before := left.depthAfter?_listing depth
        (.symbol (.operator o) :: (right.listing ++ rest))
      have after := right.depthAfter?_listing depth rest
      rw [Formula.listing, List.append_assoc, List.cons_append, before]
      cases depth <;> exact after
  | .trailing operand o _, depth, rest => by
      have before := operand.depthAfter?_listing depth (.symbol (.operator o) :: rest)
      rw [Formula.listing, List.append_assoc, List.singleton_append, before]
      cases depth <;> rfl
  | .leading o _ operand, depth, rest => by
      have after := operand.depthAfter?_listing depth rest
      rw [Formula.listing, List.cons_append]
      cases depth <;> exact after

theorem Arguments.depthAfter?_listing : ∀ (a : Arguments) (depth : Nat) (rest : List Token),
    depthAfter? (depth + 1) (a.listing ++ rest) = depthAfter? (depth + 1) rest
  | .last argument, depth, rest => argument.depthAfter?_listing (depth + 1) rest
  | .more argument divider arguments, depth, rest => by
      have before := argument.depthAfter?_listing (depth + 1)
        (.symbol (.divider divider) :: (arguments.listing ++ rest))
      have after := arguments.depthAfter?_listing depth rest
      rw [Arguments.listing, List.append_assoc, List.cons_append, before]
      exact after

end

theorem callsOpen_of_isChain {tokens : List Token}
    (chain : tokens.IsChain fun a b => a.joins b = true)
    (last : ∀ a ∈ tokens.getLast?, a.completes = true) : CallsOpen tokens := by
  induction tokens with
  | nil => trivial
  | cons a tokens ih =>
      have later : CallsOpen tokens := by
        refine ih chain.tail fun b mem => last b ?_
        rw [Option.mem_def] at mem ⊢
        rw [List.getLast?_cons, mem]
        rfl
      rcases a with _ | (f | _ | _ | _ | _)
      case symbol.function =>
        refine ⟨fun positive => ?_, later⟩
        cases tokens with
        | nil =>
            have nullary : f.isConstant = true := last _ rfl
            rw [positive] at nullary
            cases nullary
        | cons b tokens =>
            have joins := chain.rel_head? (y := b) rfl
            unfold Token.joins Token.completes at joins
            simpa [positive] using joins
      all_goals exact later

theorem Formula.exists_run_of_operandFirst {t : Formula} (first : t.OperandFirst) :
    ∃ sent after, Stack.Run [] (place 0 t.listing) sent after ∧
      ∀ p ∈ after, p.isOpening = false := by
  have phrase := t.phrase first
  have calls : CallsOpen t.listing := by
    obtain ⟨a, last, completes⟩ := phrase.last
    refine callsOpen_of_isChain phrase.chain fun b mem => ?_
    obtain rfl := Option.some.inj (last.symm.trans mem)
    exact completes
  have counted : depthAfter? 0 t.listing = some 0 := by
    have := t.depthAfter?_listing 0 []
    rwa [List.append_nil] at this
  obtain ⟨sent, after, run, covered⟩ := Stack.exists_run_of_depthAfter? calls counted
    (Or.inl Stack.Covered.nil)
  exact ⟨sent, after, run, covered.not_opening⟩

/-! ### What is taken for a missing operand -/

namespace Phrase

variable {tokens before rest : List Token} {a b : Token}

theorem joins_of_eq (h : Phrase tokens) (eq : tokens = before ++ a :: b :: rest) :
    a.joins b = true :=
  List.isChain_iff_forall_rel_of_append_cons_cons.mp h.chain eq

theorem exists_before_operator {o : OperatorSymbol} (h : Phrase tokens)
    (eq : tokens = before ++ .symbol (.operator o) :: rest) :
    ∃ start previous, before = start ++ [previous] ∧ previous.completes = true := by
  rcases List.eq_nil_or_concat before with rfl | ⟨start, previous, rfl⟩
  · obtain ⟨c, first, begins⟩ := h.first
    rw [eq] at first
    obtain rfl := Option.some.inj first
    cases begins
  · refine ⟨start, previous, by simp, ?_⟩
    have split_eq : tokens = start ++ previous :: .symbol (.operator o) :: rest := by
      rw [eq]
      simp
    have joins := h.joins_of_eq split_eq
    by_contra waits
    unfold Token.joins at joins
    rw [if_neg waits] at joins
    split at joins <;> cases joins

theorem expectsOperand_of_completes (completes : a.completes = true)
    (other : ∀ f : FunctionSymbol, a ≠ .symbol (.function f)) :
    Adjacency.expectsOperand a = false := by
  rcases a with _ | (f | o | _ | _ | _)
  case symbol.function => exact absurd rfl (other f)
  case symbol.operator =>
    have one : o.isUnary = true := completes
    simp [Adjacency.expectsOperand, OperatorSymbol.isBinary_eq_not_isUnary, one]
  case symbol.opening => cases completes
  case symbol.divider => cases completes
  all_goals rfl

theorem refusesOperand_of_begins (begins : a.begins = true) (other : a.isOpening = false) :
    Adjacency.refusesOperand a = false := by
  rcases a with _ | (_ | _ | _ | _ | _)
  case symbol.operator => cases begins
  case symbol.opening => cases other
  case symbol.divider => cases begins
  all_goals rfl

/-- Three neighbours in a phrase fit, unless the middle one is an operator that comes after a
constant or, being binary, before an opening bracket. -/
theorem fits {c : Token} (h : Phrase tokens) (eq : tokens = before ++ a :: b :: c :: rest)
    (no_constant : ∀ f o, a = .symbol (.function f) → b ≠ .symbol (.operator o))
    (no_opening : ∀ o, b = .symbol (.operator o) → o.isBinary = true → c.isOpening = false) :
    Adjacency.fits a b c = true := by
  have joins_ab := h.joins_of_eq eq
  rw [List.append_cons] at eq
  have joins_bc := h.joins_of_eq eq
  -- Functions and operators are the only tokens that look at their neighbours.
  rcases b with _ | (f | o | _ | _ | _)
  case symbol.function =>
    unfold Token.joins Token.completes at joins_bc
    unfold Adjacency.fits
    dsimp only at joins_bc ⊢
    split
    · next nullary =>
      rw [if_pos nullary] at joins_bc
      rcases c with _ | (_ | _ | _ | _ | _) <;> first | rfl | cases joins_bc
    · next positive =>
      rwa [if_neg positive] at joins_bc
  case symbol.operator =>
    obtain ⟨start, previous, split_eq, completes⟩ := h.exists_before_operator eq
    obtain ⟨rfl, rfl⟩ := List.append_singleton_inj.mp split_eq
    have operand := expectsOperand_of_completes completes fun f eq => no_constant f o eq rfl
    unfold Adjacency.fits
    dsimp only
    rw [operand]
    cases two : o.isBinary with
    | false => rfl
    | true =>
        have waits : (Token.symbol (.operator o)).completes = false :=
          OperatorSymbol.isUnary_eq_false_of_isBinary two
        unfold Token.joins at joins_bc
        rw [waits, if_neg Bool.false_ne_true] at joins_bc
        rw [refusesOperand_of_begins joins_bc (no_opening o rfl two)]
        rfl
  all_goals rfl

theorem starts (h : Phrase tokens) (mem : a ∈ tokens.head?) : Adjacency.starts a = true := by
  obtain ⟨b, first, begins⟩ := h.first
  obtain rfl := Option.some.inj (first.symm.trans mem)
  rcases b with _ | (_ | _ | _ | _ | _)
  case symbol.operator => cases begins
  all_goals rfl

theorem ends (h : Phrase tokens) (mem : a ∈ tokens.getLast?)
    (right : ∀ o, a = .symbol (.operator o) → o.isLeftAssociative = false) :
    Adjacency.ends a = true := by
  obtain ⟨b, last, completes⟩ := h.last
  obtain rfl := Option.some.inj (last.symm.trans mem)
  rcases b with _ | (_ | o | _ | _ | _)
  case symbol.function => exact completes
  case symbol.operator =>
    have one : o.isUnary = true := completes
    simp [Adjacency.ends, one, right o rfl]
  all_goals rfl

/-- The neighbours in a phrase are refused exactly if a binary operator comes before an opening
bracket, a constant before an operator that is not the last token, or a left-associative operator
comes last. -/
theorem firstMisplaced?_eq_none_iff (h : Phrase tokens) :
    Adjacency.firstMisplaced? tokens = none ↔
      (∀ before o bracket rest,
        tokens = before ++ .symbol (.operator o) :: .symbol (.opening bracket) :: rest →
          o.isBinary = false) ∧
      (∀ before f o next rest,
        tokens = before ++ .symbol (.function f) :: .symbol (.operator o) :: next :: rest →
          f.isConstant = false) ∧
      ∀ o, tokens.getLast? = some (.symbol (.operator o)) → o.isLeftAssociative = false := by
  rw [Adjacency.firstMisplaced?_eq_none_iff]
  constructor
  · rintro ⟨fit, -, last⟩
    refine ⟨fun before o bracket rest eq => ?_, fun before f o next rest eq => ?_, fun o eq => ?_⟩
    · obtain ⟨start, previous, rfl, -⟩ := h.exists_before_operator eq
      rw [← List.append_cons] at eq
      have fits := fit _ _ _ _ _ eq
      simp only [Adjacency.fits, Adjacency.refusesOperand, Bool.and_true, Bool.and_eq_true] at fits
      simpa using fits.2
    · have fits := fit _ _ _ _ _ eq
      simp [Adjacency.fits, Adjacency.expectsOperand] at fits
    · have ends := last _ eq
      simp only [Adjacency.ends, Bool.and_eq_true] at ends
      simpa using ends.2
  · rintro ⟨no_opening, no_constant, last⟩
    refine ⟨fun before a b c rest eq => ?_, fun a mem => h.starts mem, fun a mem => ?_⟩
    · refine h.fits eq ?_ ?_
      · rintro f o rfl rfl
        have positive := no_constant _ _ _ _ _ eq
        have joins := h.joins_of_eq eq
        unfold Token.joins Token.completes at joins
        simp [positive, Token.isOpening] at joins
      · rintro o rfl two
        by_contra opening
        rcases c with _ | (_ | _ | bracket | _ | _)
        case symbol.opening =>
          rw [List.append_cons] at eq
          have := no_opening _ _ _ _ eq
          rw [two] at this
          cases this
        all_goals exact opening rfl
    · refine h.ends mem ?_
      rintro o rfl
      exact last o mem

end Phrase

/-- A formula in which no operator stands before its only operand is accepted exactly if none of
its neighbours is taken for a missing operand, and otherwise a token is misplaced: neither reading
nor structure can be at fault. -/
theorem parse_formula_iff {table : SymbolTable} {expression : String} {t : Formula}
    (first : t.OperandFirst) (tokenized : tokenize table expression = .ok t.listing) :
    ((∃ output, parse table expression = .ok output) ↔
      (∀ before o bracket rest,
        t.listing = before ++ .symbol (.operator o) :: .symbol (.opening bracket) :: rest →
          o.isBinary = false) ∧
      (∀ before f o next rest,
        t.listing = before ++ .symbol (.function f) :: .symbol (.operator o) :: next :: rest →
          f.isConstant = false) ∧
      ∀ o, t.listing.getLast? = some (.symbol (.operator o)) → o.isLeftAssociative = false) ∧
    ((∃ output, parse table expression = .ok output) ∨
      ∃ p, parse table expression = .error (.misplaced p)) := by
  obtain ⟨sent, after, run, closed⟩ := t.exists_run_of_operandFirst first
  rw [exists_parse_eq_ok_iff_of_run tokenized run closed,
    ← (t.phrase first).firstMisplaced?_eq_none_iff]
  refine ⟨Iff.rfl, ?_⟩
  rw [parse_of_run tokenized run closed]
  cases Adjacency.firstMisplaced? t.listing with
  | none => exact Or.inl rfl
  | some p => exact Or.inr ⟨p, rfl⟩

/-- The formula of `sin(1!,2)-3*(4)`. -/
def Formula.factored : Formula :=
  (sine (.more (ofNat 1).factorial "," (.last (ofNat 2)))).difference
    ((ofNat 3).product (ofNat 4).inBrackets)

/-- A bracket after `*` is taken for a missing operand. -/
theorem parse_factored :
    Formula.factored.OperandFirst ∧
      tokenize .standard "sin(1!,2)-3*(4)" = .ok Formula.factored.listing ∧
        ∃ p, parse .standard "sin(1!,2)-3*(4)" = .error (.misplaced p) := by
  have first : Formula.factored.OperandFirst := by
    simp [Formula.factored, Formula.difference, Formula.product, Formula.factorial, Formula.sine,
      Formula.inBrackets, Formula.ofNat, Formula.OperandFirst, Arguments.OperandFirst]
  have tokenized : tokenize .standard "sin(1!,2)-3*(4)" = .ok Formula.factored.listing := by
    decide +kernel
  obtain ⟨accepted_iff, outcome⟩ := parse_formula_iff first tokenized
  refine ⟨first, tokenized, outcome.resolve_left fun accepted => ?_⟩
  have not_binary := (accepted_iff.mp accepted).1 (Formula.factored.listing.take 9) .times "("
    (Formula.factored.listing.drop 11) rfl
  cases not_binary

end ReversePolish

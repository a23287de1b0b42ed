import ReversePolish.Proofs.Formula
import ReversePolish.Proofs.Reading

/-! # What comes after a function

A function that takes arguments is called: an opening bracket comes right after it, and none after a
constant.  The check of neighbours sees to that for every token that has a neighbour on both sides,
and its last rule for the last token (`followers_of_parse`).

Nothing is asked of what comes after the first token, so an expression may start with a function
that is not called, or with a constant that is (`uncalled_at_start`).  Of a function that takes
arguments not much can come next even there: the scanner reads no number after it, the stack refuses
a divider or a closing bracket on top of it, and an operator would miss its operand unless it ends
the expression. -/

namespace ReversePolish

/-! ### Neighbours -/

namespace Adjacency

theorem fits_function (previous : Token) (f : FunctionSymbol) (next : Token) :
    fits previous (.symbol (.function f)) next = true ↔ next.isOpening = !f.isConstant := by
  unfold fits
  cases nullary : f.isConstant <;> simp [nullary]

theorem fits_operator_of_function (f : FunctionSymbol) (o : OperatorSymbol) (next : Token) :
    fits (.symbol (.function f)) (.symbol (.operator o)) next = false := rfl

end Adjacency

/-! ### The top of the stack -/

namespace Stack

theorem Run.not_refused {f : FunctionSymbol} {a : Token} {tokens : List Token}
    {sent : List PlacedToken} {after : Stack} {e : StructureError} (positive : f.isConstant = false)
    (run : Run [] (place 0 (.symbol (.function f) :: a :: tokens)) sent after) :
    receive [⟨.symbol (.function f), 0⟩] ⟨a, 1⟩ ≠ .error e := by
  cases run with
  | cons first later =>
      obtain ⟨-, rfl⟩ := first.unique (Step.function positive)
      cases later with
      | cons step _ =>
          rw [receive_of_step step]
          exact fun refused => by cases refused

end Stack

/-! ### Accepted expressions -/

variable {table : SymbolTable} {expression : String} {tokens : List Token}

theorem called_of_fitting {f : FunctionSymbol} {before rest : List Token}
    (fitting : Adjacency.firstMisplaced? tokens = none)
    (eq : tokens = before ++ .symbol (.function f) :: rest) (not_first : before ≠ []) :
    rest.head?.any Token.isOpening = !f.isConstant := by
  obtain ⟨fit, -, ends⟩ := Adjacency.firstMisplaced?_eq_none_iff.mp fitting
  obtain ⟨start, previous, rfl⟩ := (List.eq_nil_or_concat before).resolve_left not_first
  rw [List.concat_eq_append, List.append_assoc, List.singleton_append] at eq
  cases rest with
  | nil =>
      have nullary : f.isConstant = true := ends (.symbol (.function f)) (by simp [eq])
      rw [nullary]
      rfl
  | cons next after => exact (Adjacency.fits_function ..).mp (fit _ _ _ _ _ eq)

theorem exists_follower_of_first {f : FunctionSymbol} {rest : List Token}
    {sent : List PlacedToken} {stack : Stack}
    (tokenized : tokenize table expression = .ok (.symbol (.function f) :: rest))
    (run : Stack.Run [] (place 0 (.symbol (.function f) :: rest)) sent stack)
    (fitting : Adjacency.firstMisplaced? (.symbol (.function f) :: rest) = none)
    (positive : f.isConstant = false) :
    ∃ next after, rest = next :: after ∧
      (next.isOpening = true ∨ (∃ g, next = .symbol (.function g)) ∨
        ∃ o, next = .symbol (.operator o) ∧ o.isUnary = true ∧ o.isLeftAssociative = false ∧
          after = []) := by
  obtain ⟨fit, -, ends⟩ := Adjacency.firstMisplaced?_eq_none_iff.mp fitting
  cases rest with
  | nil =>
      have nullary : f.isConstant = true := ends _ rfl
      rw [positive] at nullary
      cases nullary
  | cons next after =>
      refine ⟨next, after, rfl, ?_⟩
      -- The scanner reads no number here, and the stack takes no divider or closing bracket.
      rcases next with _ | (g | o | _ | _ | _)
      case number =>
        have number_due := @acceptsNumber_of_tokenize _ _ [] _ _ _ _ tokenized
        cases number_due
      case symbol.function => exact Or.inr (Or.inl ⟨g, rfl⟩)
      case symbol.operator =>
        cases after with
        | nil =>
            have last : (o.isUnary && !o.isLeftAssociative) = true := ends _ rfl
            rw [Bool.and_eq_true, Bool.not_eq_true'] at last
            exact Or.inr (Or.inr ⟨o, rfl, last.1, last.2, rfl⟩)
        | cons next after =>
            have fits := fit [] _ _ _ _ rfl
            rw [Adjacency.fits_operator_of_function] at fits
            cases fits
      case symbol.opening => exact Or.inl rfl
      case symbol.closing => exact absurd rfl (run.not_refused positive)
      case symbol.divider => exact absurd rfl (run.not_refused positive)

/-- In an accepted expression a function that does not come first is called exactly if it takes
arguments.  One that takes arguments and comes first is called, or else another function comes right
after it, or an operator that ends the expression. -/
theorem followers_of_parse {output : List Token} (accepted : parse table expression = .ok output) :
    ∃ tokens, tokenize table expression = .ok tokens ∧
      (∀ before f rest, tokens = before ++ .symbol (.function f) :: rest → before ≠ [] →
        rest.head?.any Token.isOpening = !f.isConstant) ∧
      ∀ f rest, tokens = .symbol (.function f) :: rest → f.isConstant = false →
        ∃ next after, rest = next :: after ∧
          (next.isOpening = true ∨ (∃ g, next = .symbol (.function g)) ∨
            ∃ o, next = .symbol (.operator o) ∧ o.isUnary = true ∧ o.isLeftAssociative = false ∧
              after = []) := by
  obtain ⟨tokens, sent, stack, tokenized, run, -, fitting, -⟩ := parse_eq_ok_iff.mp accepted
  refine ⟨tokens, tokenized, ?_, ?_⟩
  · intro before f rest eq not_first
    exact called_of_fitting fitting eq not_first
  · rintro f rest rfl positive
    exact exists_follower_of_first tokenized run fitting positive

/-- In `sin cos(1)-sin(2)` all functions but the first one are called. -/
theorem followers_of_parse_sines :
    ∃ output, parse .standard "sin cos(1)-sin(2)" = .ok output ∧
      ∃ tokens, tokenize .standard "sin cos(1)-sin(2)" = .ok tokens ∧
        (∀ before f rest, tokens = before ++ .symbol (.function f) :: rest → before ≠ [] →
          rest.head?.any Token.isOpening = !f.isConstant) ∧
        ∀ f rest, tokens = .symbol (.function f) :: rest → f.isConstant = false →
          ∃ next after, rest = next :: after ∧
            (next.isOpening = true ∨ (∃ g, next = .symbol (.function g)) ∨
              ∃ o, next = .symbol (.operator o) ∧ o.isUnary = true ∧
                o.isLeftAssociative = false ∧ after = []) := by
  have accepted : (parse .standard "sin cos(1)-sin(2)").isOk = true := by
    decide +kernel
  obtain ⟨output, parsed⟩ := exists_of_isOk accepted
  exact ⟨output, parsed, followers_of_parse parsed⟩

/-- At the start of an accepted expression a function that takes arguments need not be called, and a
constant may be. -/
theorem uncalled_at_start :
    (¬ ∀ (table : SymbolTable) (expression : String) (output tokens : List Token),
      parse table expression = .ok output → tokenize table expression = .ok tokens →
        ∀ before f rest, tokens = before ++ .symbol (.function f) :: rest →
          f.isConstant = false → rest.head?.any Token.isOpening = true) ∧
    ¬ ∀ (table : SymbolTable) (expression : String) (output tokens : List Token),
      parse table expression = .ok output → tokenize table expression = .ok tokens →
        ∀ before f rest, tokens = before ++ .symbol (.function f) :: rest →
          f.isConstant = true → rest.head?.any Token.isOpening = false := by
  constructor
  · intro called
    have tokenized : tokenize .standard "sin !" =
        .ok [.symbol (.function .sine), .symbol (.operator .factorial)] := by
      decide +kernel
    have parsed : parse .standard "sin !" =
        .ok [.symbol (.operator .factorial), .symbol (.function .sine)] := by
      decide +kernel
    cases called _ _ _ _ parsed tokenized [] .sine _ rfl rfl
  · intro uncalled
    have tokenized : tokenize .withPi "pi(1)" =
        .ok (.symbol (.function .pi) :: (Formula.ofNat 1).inBrackets.listing) := by
      decide +kernel
    have parsed : parse .withPi "pi(1)" =
        .ok (.symbol (.function .pi) :: (Formula.ofNat 1).postorder) := by
      decide +kernel
    cases uncalled _ _ _ _ parsed tokenized [] .pi _ rfl rfl

end ReversePolish

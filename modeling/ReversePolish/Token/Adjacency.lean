import ReversePolish.Token.Basic

/-! # Which tokens may stand next to each other

A token with a neighbour on both sides must fit between them, the first token must be able to
start an expression and the last one to end it.  `firstMisplaced?` finds the first token in the
order of these checks that breaks a rule, and `firstMisplaced?_eq_none_iff` says that it finds none
exactly if every token keeps them.

An operator may start an expression unless it is binary and left-associative, and may end one if it
is unary and right-associative. -/

namespace ReversePolish.Adjacency

/-- Whether a token expects an operand right after it, so that no operator may follow. -/
def expectsOperand : Token → Bool
  | .symbol (.operator o) => o.isBinary
  | .symbol (.function _) | .symbol (.divider _) | .symbol (.opening _) => true
  | _ => false

/-- Whether a token cannot start the right operand of a binary operator. -/
def refusesOperand : Token → Bool
  | .symbol (.operator _) | .symbol (.divider _) | .symbol (.opening _) => true
  | _ => false

/-- Whether a token fits between its neighbours. -/
def fits (previous current next : Token) : Bool :=
  match current with
  | .symbol (.operator o) => !expectsOperand previous && !(o.isBinary && refusesOperand next)
  | .symbol (.function f) => if f.isConstant then !next.isOpening else next.isOpening
  | _ => true

/-- Whether a token may be the first one. -/
def starts : Token → Bool
  | .symbol (.operator o) => !(o.isBinary && o.isLeftAssociative)
  | _ => true

/-- Whether a token may be the last one. -/
def ends : Token → Bool
  | .symbol (.function f) => f.isConstant
  | .symbol (.operator o) => o.isUnary && !o.isLeftAssociative
  | _ => true

/-- The first of the tokens that does not fit between its neighbours, where the list starts at a
given index. -/
def firstMisfit? (index : Nat) : List Token → Option PlacedToken
  | previous :: current :: next :: rest =>
    if fits previous current next then firstMisfit? (index + 1) (current :: next :: rest)
    else some ⟨current, index + 1⟩
  | _ => none

/-- A misplaced token, if there is one: within the list, else at its start, else at its end. -/
def firstMisplaced? (tokens : List Token) : Option PlacedToken :=
  (firstMisfit? 0 tokens).or <|
    ((tokens.head?.filter fun token => !starts token).map fun token => ⟨token, 0⟩).or <|
      (tokens.getLast?.filter fun token => !ends token).map fun token => ⟨token, tokens.length - 1⟩

theorem firstMisfit?_eq_none_iff {index : Nat} {tokens : List Token} :
    firstMisfit? index tokens = none ↔
      ∀ before previous current next after,
        tokens = before ++ previous :: current :: next :: after → fits previous current next := by
  fun_induction firstMisfit? index tokens with
  | case1 index previous current next rest fit ih =>
    rw [ih]
    constructor
    · intro h before p c n after eq
      cases before with
      | nil => simp_all
      | cons b before => exact h before p c n after (List.cons.inj eq).2
    · exact fun h before p c n after eq => h (previous :: before) p c n after (by rw [eq]; rfl)
  | case2 index previous current next rest unfit =>
    simp only [reduceCtorEq, false_iff]
    exact fun h => unfit (h [] previous current next rest rfl)
  | case3 index tokens short =>
    simp only [true_iff]
    rintro (_ | ⟨a, _ | ⟨b, before⟩⟩) p c n after eq
    · exact absurd eq (short p c n after)
    · exact absurd eq (short a p c (n :: after))
    · cases before with
      | nil => exact absurd eq (short a b p (c :: n :: after))
      | cons d before => exact absurd eq (short a b d _)

/-- No token is misplaced exactly if all keep the rules. -/
theorem firstMisplaced?_eq_none_iff {tokens : List Token} :
    firstMisplaced? tokens = none ↔
      (∀ before previous current next after,
        tokens = before ++ previous :: current :: next :: after → fits previous current next) ∧
      (∀ token ∈ tokens.head?, starts token) ∧ ∀ token ∈ tokens.getLast?, ends token := by
  rw [firstMisplaced?, Option.or_eq_none_iff, Option.or_eq_none_iff, firstMisfit?_eq_none_iff]
  simp [Option.filter_eq_none_iff]

end ReversePolish.Adjacency

import Mathlib.Data.List.Infix
import ReversePolish.Proofs.Stack

/-! # Depth

`bracketDepth` is the number of opening minus the number of closing brackets.  It says how many
brackets wait on the stack (`Stack.Run.countP_isOpening`), whatever the other tokens are.  Brackets
pair up in tokens that are `Balanced`, and what stands between a bracket and the one that closes it
is such. -/

namespace ReversePolish

namespace Token

/-- Whether a token is a closing bracket. -/
def isClosing : Token → Bool
  | symbol (.closing _) => true
  | _ => false

/-- Whether a token is a divider. -/
def isDivider : Token → Bool
  | symbol (.divider _) => true
  | _ => false

/-- Whether a token stays out of the output: a bracket or a divider. -/
def isPunctuation (a : Token) : Bool := a.isOpening || a.isClosing || a.isDivider

end Token

/-- The number of opening minus the number of closing brackets. -/
def bracketDepth (tokens : List Token) : Int :=
  tokens.countP Token.isOpening - tokens.countP Token.isClosing

/-- Every closing bracket has an opening one before it, and the other way round. -/
structure Balanced (tokens : List Token) : Prop where
  nonneg : ∀ front, front <+: tokens → 0 ≤ bracketDepth front
  closed : bracketDepth tokens = 0

theorem balanced_iff_inits {tokens : List Token} :
    Balanced tokens ↔
      (∀ front ∈ tokens.inits, 0 ≤ bracketDepth front) ∧ bracketDepth tokens = 0 := by
  simp only [List.mem_inits]
  exact ⟨fun h => ⟨h.nonneg, h.closed⟩, fun h => ⟨h.1, h.2⟩⟩

instance (tokens : List Token) : Decidable (Balanced tokens) :=
  decidable_of_iff _ balanced_iff_inits.symm

@[simp] theorem bracketDepth_nil : bracketDepth [] = 0 := rfl

theorem bracketDepth_append (xs ys : List Token) :
    bracketDepth (xs ++ ys) = bracketDepth xs + bracketDepth ys := by
  simp only [bracketDepth, List.countP_append]
  omega

theorem bracketDepth_cons (a : Token) (tokens : List Token) :
    bracketDepth (a :: tokens) = bracketDepth [a] + bracketDepth tokens :=
  bracketDepth_append [a] tokens

@[simp] theorem bracketDepth_opening (literal : String) :
    bracketDepth [.symbol (.opening literal)] = 1 := rfl

@[simp] theorem bracketDepth_closing (literal : String) :
    bracketDepth [.symbol (.closing literal)] = -1 := rfl

namespace Stack

theorem countP_isOpening_of_isOperator {operators : List PlacedToken}
    (all : ∀ p ∈ operators, p.isOperator = true) :
    operators.countP PlacedToken.isOpening = 0 := by
  rw [List.countP_eq_zero]
  intro p mem
  simp [isOpening_eq_false_of_isOperator (all p mem)]

theorem isOpening_eq_false_of_isFunction {p : PlacedToken} (h : p.isFunction = true) :
    p.isOpening = false := by
  obtain ⟨token, index⟩ := p
  rcases token with _ | (_ | _ | _ | _ | _)
  case symbol.function => rfl
  all_goals cases h

theorem isOperator_eq_false_of_isFunction {p : PlacedToken} (h : p.isFunction = true) :
    p.isOperator = false := by
  obtain ⟨token, index⟩ := p
  rcases token with _ | (_ | _ | _ | _ | _)
  case symbol.function => rfl
  all_goals cases h

/-- One token changes the number of open brackets on the stack by its own depth. -/
theorem Step.countP_isOpening {stack after : Stack} {p : PlacedToken} {sent : List PlacedToken}
    (h : Step stack p sent after) :
    (after.countP PlacedToken.isOpening : Int) =
      stack.countP PlacedToken.isOpening + bracketDepth [p.token] := by
  cases h with
  | number => simp [bracketDepth, Token.isOpening, Token.isClosing]
  | constant => simp [bracketDepth, Token.isOpening, Token.isClosing]
  | function => simp [bracketDepth, PlacedToken.isOpening, Token.isOpening, Token.isClosing]
  | opening =>
      rw [List.countP_cons_of_pos rfl, bracketDepth_opening]
      omega
  | operator all _ =>
      have none_open :=
        countP_isOpening_of_isOperator fun p mem => isOperator_of_poppedBy (all p mem)
      simp [none_open, bracketDepth, PlacedToken.isOpening, Token.isOpening, Token.isClosing]
  | divider all _ =>
      simp [countP_isOpening_of_isOperator all, bracketDepth, Token.isOpening, Token.isClosing]
  | closing all hit _ =>
      rw [List.countP_append, countP_isOpening_of_isOperator all, List.countP_cons_of_pos hit,
        bracketDepth_closing]
      omega
  | closingCall all hit function =>
      have called := isOpening_eq_false_of_isFunction function
      rw [List.countP_append, countP_isOpening_of_isOperator all, List.countP_cons_of_pos hit,
        List.countP_cons_of_neg (by simp [called]), bracketDepth_closing]
      omega

theorem Run.countP_isOpening {stack after : Stack} {start : Nat} {tokens : List Token}
    {sent : List PlacedToken} (h : stack.Run (place start tokens) sent after) :
    (after.countP PlacedToken.isOpening : Int) =
      stack.countP PlacedToken.isOpening + bracketDepth tokens := by
  induction tokens generalizing stack start sent with
  | nil =>
      cases h
      simp
  | cons a tokens ih =>
      cases h with
      | cons step rest =>
          have first := step.countP_isOpening
          have later := ih rest
          rw [bracketDepth_cons]
          dsimp only at first
          omega

end Stack

end ReversePolish

import Mathlib.Data.List.Chain
import ReversePolish.Proofs.Formula
import ReversePolish.Proofs.Reading

/-! # Evaluation of the output

Evaluating a postfix expression, every token takes as many values as it has operands and leaves one.
`valuesAfter?` counts the values, and `evaluable_iff_of_parse` says which accepted expressions end
with exactly one of them and never lack any.  Acceptance is not enough: it looks at three
neighbouring tokens at a time, counts no arguments, and does not ask what an operator before its
operand pops.  So an operand must stand where one is due and nowhere else (`alternates`), a bracket
must hold as many arguments as are asked for (`argumentsMatch`), and an operator that starts the
expression must not be popped by the next one (`leadingOperators`).

The invariant of the stack is `Owes`: with so many values at hand, counting the operand that is due,
and so many arguments to come in each open bracket, what waits will end with one value.  One token
keeps it (`Stack.Step.values_of_orderly`), so a run does (`Stack.Run.values_of_orderly`). -/

namespace ReversePolish

/-! ### Counting values -/

/-- How many values a token takes, if it is one that is evaluated. -/
def Token.operandCount? : Token → Option Nat
  | .number _ _ => some 0
  | .symbol (.function f) => some f.arity.toNat
  | .symbol (.operator o) => some o.operands.count
  | _ => none

/-- The number of values after tokens are evaluated, from a given number before them.  There is none
if a token lacks values. -/
def valuesAfter? : Nat → List Token → Option Nat
  | n, [] => some n
  | n, a :: tokens =>
    match a.operandCount? with
    | some count => if count ≤ n then valuesAfter? (n - count + 1) tokens else none
    | none => none

theorem OperatorSymbol.count_of_isBinary {o : OperatorSymbol} (two : o.isBinary = true) :
    o.operands.count = 1 + 1 := by
  have operands : o.operands = .two := by simpa [isBinary] using two
  rw [operands, Operands.count]

theorem OperatorSymbol.count_of_isUnary {o : OperatorSymbol} (one : o.isUnary = true) :
    o.operands.count = 0 + 1 := by
  have operands : o.operands = .one := by simpa [isUnary] using one
  rw [operands, Operands.count]

/-! ### What acceptance does not check -/

/-- Whether operands stand where one is due and nowhere else, where one is due at the start or not.
An operator with one operand may stand at either side of it. -/
def alternates : Bool → List Token → Bool
  | due, [] => !due
  | due, .number _ _ :: tokens => due && alternates false tokens
  | due, .symbol (.function f) :: tokens => due && alternates (!f.isConstant) tokens
  | due, .symbol (.operator o) :: tokens =>
    if o.isBinary then !due && alternates true tokens else alternates due tokens
  | due, .symbol (.opening _) :: tokens => due && alternates true tokens
  | due, .symbol (.closing _) :: tokens => !due && alternates false tokens
  | due, .symbol (.divider _) :: tokens => !due && alternates true tokens

/-- Whether every bracket holds as many arguments as are wanted: those of the function right before
it, or else one.  The list has the arguments to come in each open bracket, the current one included.
A function without a bracket takes what is left as its only argument. -/
def argumentsMatch : Nat → List Nat → List Token → Bool
  | wanted, _, [] => wanted = 1
  | wanted, opened, .number _ _ :: tokens => wanted = 1 && argumentsMatch 1 opened tokens
  | wanted, opened, .symbol (.function f) :: tokens =>
    wanted = 1 && argumentsMatch (if f.isConstant then 1 else f.arity.toNat) opened tokens
  | wanted, opened, .symbol (.operator _) :: tokens =>
    wanted = 1 && argumentsMatch 1 opened tokens
  | wanted, opened, .symbol (.opening _) :: tokens => argumentsMatch 1 (wanted :: opened) tokens
  | wanted, opened, .symbol (.closing _) :: tokens =>
    wanted = 1 && opened.head? = some 1 && argumentsMatch 1 opened.tail tokens
  | wanted, opened, .symbol (.divider _) :: tokens =>
    wanted = 1 && opened.head?.any (1 < ·) && argumentsMatch 1 (opened.modifyHead (· - 1)) tokens

/-- The operators before the first other token. -/
def leadingOperators : List Token → List OperatorSymbol
  | .symbol (.operator o) :: tokens => o :: leadingOperators tokens
  | _ => []

/-! ### Values that the stack owes -/

theorem valuesAfter?_append (n : Nat) (xs ys : List Token) :
    valuesAfter? n (xs ++ ys) = (valuesAfter? n xs).bind fun m => valuesAfter? m ys := by
  induction xs generalizing n with
  | nil => rfl
  | cons a xs ih =>
      rw [List.cons_append, valuesAfter?, valuesAfter?]
      split
      · split
        · exact ih _
        · rfl
      · rfl

theorem valuesAfter?_of_sent {sent later : List PlacedToken} {n m : Nat}
    (values : valuesAfter? n (sent.map PlacedToken.token) = some m) :
    valuesAfter? n ((sent ++ later).map PlacedToken.token) =
      valuesAfter? m (later.map PlacedToken.token) := by
  rw [List.map_append, valuesAfter?_append, values, Option.bind_some]

theorem valuesAfter?_operand {a : Token} {n : Nat} (count : a.operandCount? = some 0) :
    valuesAfter? n [a] = some (n + 1) := by
  rw [valuesAfter?, count]
  dsimp only
  rw [if_pos (Nat.zero_le n), Nat.sub_zero, valuesAfter?]

theorem valuesAfter?_cons {a : Token} {tokens : List Token} {n k : Nat}
    (count : a.operandCount? = some (k + 1)) (positive : 0 < n) :
    valuesAfter? (n + k) (a :: tokens) = valuesAfter? n tokens := by
  have enough : k + 1 ≤ n + k := by omega
  have left : n + k - (k + 1) + 1 = n := by omega
  rw [valuesAfter?, count]
  dsimp only
  rw [if_pos enough, left]

theorem operandCount?_of_isConstant {f : FunctionSymbol} (nullary : f.isConstant = true) :
    Token.operandCount? (.symbol (.function f)) = some 0 := by
  simpa [Token.operandCount?, FunctionSymbol.isConstant, ← UInt64.toNat_inj] using nullary

theorem valuesAfter?_operator {o : OperatorSymbol} {tokens : List Token} {n k : Nat}
    (count : o.operands.count = k + 1) (positive : 0 < n) :
    valuesAfter? (n + k) (.symbol (.operator o) :: tokens) = valuesAfter? n tokens :=
  valuesAfter?_cons (a := .symbol (.operator o)) (congrArg some count) positive

theorem valuesAfter?_function {f : FunctionSymbol} {tokens : List Token} {n k : Nat}
    (count : f.arity.toNat = k + 1) (positive : 0 < n) :
    valuesAfter? (n + k) (.symbol (.function f) :: tokens) = valuesAfter? n tokens :=
  valuesAfter?_cons (a := .symbol (.function f)) (congrArg some count) positive

namespace Stack

/-- What waits will end with one value, from so many values and so many arguments to come in each
open bracket.  The operand that is due and the current argument of every bracket count as values
that are at hand. -/
inductive Owes : Stack → List Nat → Nat → Prop
  | nil : Owes [] [] 1
  | operator {o index stack opened n more} : o.operands.count = more + 1 → Owes stack opened n →
      Owes (⟨.symbol (.operator o), index⟩ :: stack) opened (n + more)
  | function {f index stack opened n} : f.arity.toNat = 1 → Owes stack opened n →
      Owes (⟨.symbol (.function f), index⟩ :: stack) opened n
  | group {literal index stack opened n} : Owes stack opened n →
      Owes (⟨.symbol (.opening literal), index⟩ :: stack) (1 :: opened) n
  | call {literal : String} {f : FunctionSymbol} {index index' n done left : Nat} {stack : Stack}
      {opened : List Nat} : f.arity.toNat = done + left → 0 < left → Owes stack opened n →
      Owes (⟨.symbol (.opening literal), index⟩ :: ⟨.symbol (.function f), index'⟩ :: stack)
        (left :: opened) (n + done)

variable {stack : Stack} {opened : List Nat} {n : Nat}

theorem Owes.pos (h : Owes stack opened n) : 0 < n := by
  induction h with
  | nil => omega
  | operator _ _ ih => omega
  | function _ _ ih => exact ih
  | group _ ih => exact ih
  | call _ _ _ ih => omega

/-- Operators that leave the stack find their values. -/
theorem Owes.of_operators : ∀ {ps : List PlacedToken} {n : Nat},
    (∀ p ∈ ps, p.isOperator = true) → Owes (ps ++ stack) opened n →
      ∃ m, valuesAfter? n (ps.map PlacedToken.token) = some m ∧ Owes stack opened m
  | [], n, _, h => ⟨n, rfl, h⟩
  | p :: ps, _, operators, h => by
      have operator := operators p List.mem_cons_self
      have others : ∀ q ∈ ps, q.isOperator = true :=
        fun q mem => operators q (List.mem_cons_of_mem _ mem)
      rw [List.cons_append] at h
      generalize eq : ps ++ stack = rest at h
      cases h with
      | operator count below =>
          subst eq
          obtain ⟨m, values, owes⟩ := below.of_operators others
          refine ⟨m, ?_, owes⟩
          rw [List.map_cons, valuesAfter?_operator count below.pos, values]
      | function => cases operator
      | group => cases operator
      | call => cases operator

theorem Owes.values_eq (h : Owes stack opened n) (closed : ∀ p ∈ stack, p.isOpening = false) :
    valuesAfter? n (stack.map PlacedToken.token) = some 1 := by
  induction h with
  | nil => rfl
  | operator count below ih =>
      rw [List.map_cons, valuesAfter?_operator count below.pos]
      exact ih fun p mem => closed p (List.mem_cons_of_mem _ mem)
  | function count below ih =>
      rw [List.map_cons]
      refine (valuesAfter?_function (k := 0) count below.pos).trans (ih fun p mem => ?_)
      exact closed p (List.mem_cons_of_mem _ mem)
  | group => cases closed _ List.mem_cons_self
  | call => cases closed _ List.mem_cons_self

/-- What the stack owes, where a bracket with so many arguments may come next. -/
inductive Holds : Nat → Stack → List Nat → Nat → Prop
  | ready {stack : Stack} {opened : List Nat} {n : Nat} : Owes stack opened n →
      Holds 1 stack opened n
  | called {f : FunctionSymbol} {index : Nat} {stack : Stack} {opened : List Nat} {n : Nat} :
      f.isConstant = false → Owes stack opened n →
        Holds f.arity.toNat (⟨.symbol (.function f), index⟩ :: stack) opened n

theorem Holds.owes {wanted : Nat} (h : Holds wanted stack opened n) (one : wanted = 1) :
    Owes stack opened n := by
  cases h with
  | ready owes => exact owes
  | called _ owes => exact Owes.function one owes

theorem Owes.closing {p : PlacedToken} {below : Stack} (h : Owes (p :: below) opened n)
    (opening : p.isOpening = true) (no_call : ∀ q ∈ below.head?, q.isFunction = false)
    (last : opened.head? = some 1) : Owes below opened.tail n := by
  cases h with
  | operator => cases opening
  | function => cases opening
  | group owes => exact owes
  | call => cases no_call _ rfl

theorem Owes.closingCall {p called : PlacedToken} {below : Stack}
    (h : Owes (p :: called :: below) opened n) (opening : p.isOpening = true)
    (function : called.isFunction = true) (last : opened.head? = some 1) :
    ∃ m, valuesAfter? n [called.token] = some m ∧ Owes below opened.tail m := by
  cases h with
  | operator => cases opening
  | function => cases opening
  | group owes =>
      cases owes with
      | operator => cases function
      | function count owes =>
          exact ⟨n, valuesAfter?_function (k := 0) count owes.pos, owes⟩
      | group => cases function
      | call => cases function
  | @call _ _ _ _ m done left _ _ count _ owes =>
      obtain rfl := Option.some.inj last
      exact ⟨m, valuesAfter?_function count owes.pos, owes⟩

theorem Owes.divider {p : PlacedToken} {below : Stack} (h : Owes (p :: below) opened n)
    (opening : p.isOpening = true) (more : opened.head?.any (1 < ·) = true) :
    Owes (p :: below) (opened.modifyHead (· - 1)) (n + 1) := by
  cases h with
  | operator => cases opening
  | function => cases opening
  | group => cases more
  | @call _ f _ _ m done left _ opened count _ owes =>
      have more : 1 < left := by simpa using more
      have count' : f.arity.toNat = (done + 1) + (left - 1) := by omega
      have left_pos : 0 < left - 1 := by omega
      rw [Nat.add_assoc]
      exact Owes.call count' left_pos owes

theorem Holds.opening {wanted index : Nat} {literal : String} (h : Holds wanted stack opened n) :
    Owes (⟨.symbol (.opening literal), index⟩ :: stack) (wanted :: opened) n := by
  cases h with
  | ready owes => exact Owes.group owes
  | @called f _ _ _ _ positive owes =>
      have arity_pos : 0 < f.arity.toNat := by
        simpa [FunctionSymbol.isConstant, ← UInt64.toNat_inj, Nat.pos_iff_ne_zero] using positive
      exact Owes.call (Nat.zero_add _).symm arity_pos owes

end Stack

/-! ### Operands where they are due -/

/-- Tokens with operands where they are due and nowhere else, all operators after their first
operand. -/
inductive Orderly : Bool → List Token → Prop
  | nil : Orderly false []
  | number {literal value tokens} : Orderly false tokens →
      Orderly true (.number literal value :: tokens)
  | constant {f tokens} : f.isConstant = true → Orderly false tokens →
      Orderly true (.symbol (.function f) :: tokens)
  | function {f tokens} : f.isConstant = false → Orderly true tokens →
      Orderly true (.symbol (.function f) :: tokens)
  | opening {literal tokens} : Orderly true tokens →
      Orderly true (.symbol (.opening literal) :: tokens)
  | binary {o tokens} : o.isBinary = true → Orderly true tokens →
      Orderly false (.symbol (.operator o) :: tokens)
  | trailing {o tokens} : o.isUnary = true → Orderly false tokens →
      Orderly false (.symbol (.operator o) :: tokens)
  | closing {literal tokens} : Orderly false tokens →
      Orderly false (.symbol (.closing literal) :: tokens)
  | divider {literal tokens} : Orderly true tokens →
      Orderly false (.symbol (.divider literal) :: tokens)

/-- Where operands alternate and neighbours fit, an operator comes before its operand only at the
start: elsewhere the token before it expects the operand. -/
theorem orderly_of_alternates {due : Bool} {tokens : List Token}
    (operands : alternates due tokens = true)
    (fit : ∀ before a b c rest, tokens = before ++ a :: b :: c :: rest →
      Adjacency.fits a b c = true)
    (first : ∀ o rest, tokens = .symbol (.operator o) :: rest → rest ≠ [] → due = false) :
    Orderly due tokens := by
  induction tokens generalizing due with
  | nil =>
      cases due
      · exact Orderly.nil
      · cases operands
  | cons a tokens ih =>
      -- An operator does not fit after a token that expects an operand.
      have go {due' : Bool} (later : alternates due' tokens = true)
          (expects : due' = true → Adjacency.expectsOperand a = true) : Orderly due' tokens := by
        refine ih later (fun before b c d rest eq => fit (a :: before) b c d rest ?_) ?_
        · rw [eq, List.cons_append]
        · rintro o rest rfl more
          obtain ⟨b, rest, rfl⟩ := List.exists_cons_of_ne_nil more
          have fits := fit [] a (.symbol (.operator o)) b rest rfl
          cases due' with
          | false => rfl
          | true => simp [Adjacency.fits, expects rfl] at fits
      rcases a with ⟨literal, value⟩ | (f | o | literal | literal | literal)
      · simp only [alternates, Bool.and_eq_true] at operands
        obtain ⟨rfl, later⟩ := operands
        exact .number (go later (by simp))
      · simp only [alternates, Bool.and_eq_true] at operands
        obtain ⟨rfl, later⟩ := operands
        cases nullary : f.isConstant with
        | true =>
            rw [nullary] at later
            exact .constant nullary (go later (by simp))
        | false =>
            rw [nullary] at later
            exact .function nullary (go later fun _ => rfl)
      · rw [alternates] at operands
        split at operands
        · next two =>
          simp only [Bool.and_eq_true, Bool.not_eq_true'] at operands
          obtain ⟨rfl, later⟩ := operands
          exact .binary two (go later fun _ => two)
        · next one =>
          have one : o.isUnary = true := by
            simpa [OperatorSymbol.isBinary_eq_not_isUnary] using one
          obtain rfl : due = false := by
            by_cases last : tokens = []
            · subst last
              simpa [alternates] using operands
            · exact first o tokens rfl last
          exact .trailing one (go operands (by simp))
      · simp only [alternates, Bool.and_eq_true] at operands
        obtain ⟨rfl, later⟩ := operands
        exact .opening (go later fun _ => rfl)
      · simp only [alternates, Bool.and_eq_true, Bool.not_eq_true'] at operands
        obtain ⟨rfl, later⟩ := operands
        exact .closing (go later (by simp))
      · simp only [alternates, Bool.and_eq_true, Bool.not_eq_true'] at operands
        obtain ⟨rfl, later⟩ := operands
        exact .divider (go later fun _ => rfl)

/-! ### Values along a run -/

namespace Stack

section Steps

variable {stack after : Stack} {opened : List Nat} {sent : List PlacedToken} {n index : Nat}
  {literal : String}

theorem Step.values_of_operator {o : OperatorSymbol} {more : Nat}
    (step : stack.Step ⟨.symbol (.operator o), index⟩ sent after)
    (count : o.operands.count = more + 1) (owes : Owes stack opened n) :
    ∃ m, valuesAfter? n (sent.map PlacedToken.token) = some m ∧ Owes after opened (m + more) := by
  cases step with
  | operator popped =>
      obtain ⟨m, values, owes⟩ :=
        owes.of_operators fun p mem => isOperator_of_poppedBy (popped p mem)
      exact ⟨m, values, .operator count owes⟩

theorem Step.values_of_divider (step : stack.Step ⟨.symbol (.divider literal), index⟩ sent after)
    (more : opened.head?.any (1 < ·) = true) (owes : Owes stack opened n) :
    ∃ m, valuesAfter? n (sent.map PlacedToken.token) = some m ∧
      Owes after (opened.modifyHead (· - 1)) (m + 1) := by
  cases step with
  | divider operators opening =>
      obtain ⟨m, values, owes⟩ := owes.of_operators operators
      exact ⟨m, values, owes.divider opening more⟩

theorem Step.values_of_closing (step : stack.Step ⟨.symbol (.closing literal), index⟩ sent after)
    (last : opened.head? = some 1) (owes : Owes stack opened n) :
    ∃ m, valuesAfter? n (sent.map PlacedToken.token) = some m ∧ Owes after opened.tail m := by
  cases step with
  | closing operators opening no_call =>
      obtain ⟨m, values, owes⟩ := owes.of_operators operators
      exact ⟨m, values, owes.closing opening no_call last⟩
  | closingCall operators opening function =>
      obtain ⟨m, values, owes⟩ := owes.of_operators operators
      obtain ⟨m', called_values, owes⟩ := owes.closingCall opening function last
      refine ⟨m', ?_, owes⟩
      rw [valuesAfter?_of_sent values]
      exact called_values

end Steps

variable {stack after : Stack} {opened : List Nat} {sent : List PlacedToken} {start v : Nat}

/-- An orderly token finds the values that it sends others for, and what it leaves on the stack is
owed again before the tokens after it. -/
theorem Step.values_of_orderly {due : Bool} {a : Token} {tokens : List Token} {wanted index : Nat}
    (step : stack.Step ⟨a, index⟩ sent after) (orderly : Orderly due (a :: tokens))
    (arguments : argumentsMatch wanted opened (a :: tokens) = true)
    (holds : Holds wanted stack opened (v + due.toNat)) :
    ∃ due' wanted' opened' m, Orderly due' tokens ∧ argumentsMatch wanted' opened' tokens = true ∧
      valuesAfter? v (sent.map PlacedToken.token) = some m ∧
        Holds wanted' after opened' (m + due'.toNat) := by
  cases orderly with
  | number later =>
      obtain ⟨one, arguments⟩ : wanted = 1 ∧ _ := by simpa [argumentsMatch] using arguments
      cases step
      exact ⟨false, 1, opened, v + 1, later, arguments, valuesAfter?_operand rfl,
        .ready (holds.owes one)⟩
  | constant nullary later =>
      obtain ⟨one, arguments⟩ : wanted = 1 ∧ _ := by
        simpa [argumentsMatch, nullary] using arguments
      cases step with
      | constant =>
          exact ⟨false, 1, opened, v + 1, later, arguments,
            valuesAfter?_operand (operandCount?_of_isConstant nullary), .ready (holds.owes one)⟩
      | function positive => simp [nullary] at positive
  | function positive later =>
      obtain ⟨one, arguments⟩ : wanted = 1 ∧ _ := by
        simpa [argumentsMatch, positive] using arguments
      cases step with
      | constant nullary => simp [nullary] at positive
      | function =>
          exact ⟨true, _, opened, v, later, arguments, rfl, .called positive (holds.owes one)⟩
  | opening later =>
      cases step
      exact ⟨true, 1, wanted :: opened, v, later, arguments, rfl, .ready holds.opening⟩
  | binary two later =>
      obtain ⟨one, arguments⟩ : wanted = 1 ∧ _ := by simpa [argumentsMatch] using arguments
      obtain ⟨m, values, owes⟩ :=
        step.values_of_operator (OperatorSymbol.count_of_isBinary two) (holds.owes one)
      exact ⟨true, 1, opened, m, later, arguments, values, .ready owes⟩
  | trailing unary later =>
      obtain ⟨one, arguments⟩ : wanted = 1 ∧ _ := by simpa [argumentsMatch] using arguments
      obtain ⟨m, values, owes⟩ :=
        step.values_of_operator (OperatorSymbol.count_of_isUnary unary) (holds.owes one)
      exact ⟨false, 1, opened, m, later, arguments, values, .ready owes⟩
  | closing later =>
      obtain ⟨⟨one, last⟩, arguments⟩ : (wanted = 1 ∧ _) ∧ _ := by
        simpa [argumentsMatch] using arguments
      obtain ⟨m, values, owes⟩ := step.values_of_closing last (holds.owes one)
      exact ⟨false, 1, opened.tail, m, later, arguments, values, .ready owes⟩
  | divider later =>
      obtain ⟨⟨one, more⟩, arguments⟩ : (wanted = 1 ∧ _) ∧ _ := by
        simpa [argumentsMatch] using arguments
      obtain ⟨m, values, owes⟩ := step.values_of_divider more (holds.owes one)
      exact ⟨true, 1, _, m, later, arguments, values, .ready owes⟩

theorem Run.values_of_orderly {due : Bool} {tokens : List Token} {wanted : Nat}
    (run : stack.Run (place start tokens) sent after) (closed : ∀ p ∈ after, p.isOpening = false)
    (orderly : Orderly due tokens) (arguments : argumentsMatch wanted opened tokens = true)
    (holds : Holds wanted stack opened (v + due.toNat)) :
    valuesAfter? v ((sent ++ after).map PlacedToken.token) = some 1 := by
  induction tokens generalizing stack opened sent start v wanted due with
  | nil =>
      cases orderly
      cases run
      exact (holds.owes (by simpa [argumentsMatch] using arguments)).values_eq closed
  | cons a tokens ih =>
      cases run with
      | cons step rest =>
          obtain ⟨due', wanted', opened', m, orderly, arguments, values, holds⟩ :=
            step.values_of_orderly orderly arguments holds
          rw [List.append_assoc, valuesAfter?_of_sent values]
          exact ih rest orderly arguments holds

theorem valuesAfter?_zero_operator (o : OperatorSymbol) (tokens : List Token) :
    valuesAfter? 0 (.symbol (.operator o) :: tokens) = none := by
  cases operands : o.operands <;> simp [valuesAfter?, Token.operandCount?, operands, Operands.count]

theorem isChain_toList_append {α : Type} {R : α → α → Prop} (last : Option α) (a : α) (l : List α) :
    (last.toList ++ a :: l).IsChain R ↔ (∀ b ∈ last, R b a) ∧ (a :: l).IsChain R := by
  cases last <;> simp [List.isChain_cons_cons]

theorem leadingOperators_eq_nil {a : Token} {tokens : List Token}
    (other : ¬ ∃ o, a = .symbol (.operator o)) : leadingOperators (a :: tokens) = [] := by
  unfold leadingOperators
  split
  · next eq => exact absurd ⟨_, (List.cons.inj eq).1⟩ other
  · rfl

/-- Where an operator or nothing is on top, an operator that arrives pops nothing, or it pops the
one on top first. -/
theorem Step.operator_on_top {index : Nat} {o : OperatorSymbol} {last : Option OperatorSymbol}
    (step : stack.Step ⟨.symbol (.operator o), index⟩ sent after)
    (top : stack.head?.map PlacedToken.token = last.map fun s => .symbol (.operator s)) :
    (sent = [] ∧ after = ⟨.symbol (.operator o), index⟩ :: stack ∧
        ∀ s ∈ last, o.pops s = false) ∨
      ∃ s p later, last = some s ∧ o.pops s = true ∧ sent = p :: later ∧
        p.token = .symbol (.operator s) := by
  cases step with
  | operator all stop =>
      rcases sent with _ | ⟨p, later⟩
      · refine Or.inl ⟨rfl, rfl, ?_⟩
        rintro s rfl
        obtain ⟨p, head, token_eq⟩ := Option.map_eq_some_iff.mp top
        simpa [PlacedToken.poppedBy, token_eq] using stop p head
      · obtain ⟨s, rfl, token_eq⟩ := Option.map_eq_some_iff.mp top.symm
        refine Or.inr ⟨s, p, later, rfl, ?_, rfl, token_eq.symm⟩
        simpa [PlacedToken.poppedBy, ← token_eq] using all p List.mem_cons_self

/-- Operators that start the expression wait for its first operand, unless one is popped by the next
one and finds no value. -/
theorem values_iff_of_leading {tokens : List Token} {last : Option OperatorSymbol}
    (run : stack.Run (place start tokens) sent after) (closed : ∀ p ∈ after, p.isOpening = false)
    (operands : alternates true tokens = true) (arguments : argumentsMatch 1 [] tokens = true)
    (fit : ∀ before a b c rest, tokens = before ++ a :: b :: c :: rest →
      Adjacency.fits a b c = true)
    (owes : stack.Owes [] 1)
    (top : stack.head?.map PlacedToken.token = last.map fun s => .symbol (.operator s)) :
    valuesAfter? 0 ((sent ++ after).map PlacedToken.token) = some 1 ↔
      (last.toList ++ leadingOperators tokens).IsChain fun s t => t.pops s = false := by
  induction tokens generalizing stack sent start last with
  | nil => cases operands
  | cons a tokens ih =>
      by_cases leading : ∃ o, a = .symbol (.operator o)
      · obtain ⟨o, rfl⟩ := leading
        obtain ⟨unary, later_operands⟩ : o.isUnary = true ∧ alternates true tokens = true := by
          simpa [alternates, OperatorSymbol.isBinary_eq_not_isUnary] using operands
        obtain ⟨-, arguments⟩ : 1 = 1 ∧ _ := by simpa [argumentsMatch] using arguments
        have fit' : ∀ before b c d rest, tokens = before ++ b :: c :: d :: rest →
            Adjacency.fits b c d = true := by
          intro before b c d rest eq
          exact fit (_ :: before) b c d rest (by rw [eq, List.cons_append])
        rw [leadingOperators, isChain_toList_append]
        cases run with
        | cons step rest =>
            rcases step.operator_on_top top with
              ⟨rfl, rfl, free⟩ | ⟨s, p, later, rfl, pops, rfl, token_eq⟩
            · have count := OperatorSymbol.count_of_isUnary unary
              have top' : Option.map PlacedToken.token (some ⟨.symbol (.operator o), start⟩) =
                  (some o).map fun s => .symbol (.operator s) := rfl
              have later_iff :=
                ih rest later_operands arguments fit' (.operator count owes) top'
              rw [List.nil_append, later_iff]
              exact (and_iff_right free).symm
            -- The operator on top comes out first, and there is no value yet.
            · refine iff_of_false ?_ fun chain => ?_
              · rw [List.cons_append, List.cons_append, List.map_cons, token_eq,
                  valuesAfter?_zero_operator]
                simp
              · simp [chain.1 s rfl] at pops
      · have orderly := orderly_of_alternates operands fit fun o rest eq =>
          absurd ⟨o, (List.cons.inj eq).1⟩ leading
        rw [leadingOperators_eq_nil leading, List.append_nil]
        refine iff_of_true (run.values_of_orderly closed orderly arguments (.ready owes)) ?_
        cases last
        · exact List.IsChain.nil
        · exact List.isChain_singleton _

end Stack

/-- An accepted expression with operands where they are due and matching arguments is evaluated to
one value, never lacking any, exactly if no operator that starts it is popped by the next one. -/
theorem evaluable_iff_of_parse {table : SymbolTable} {expression : String}
    {tokens output : List Token} (tokenized : tokenize table expression = .ok tokens)
    (accepted : parse table expression = .ok output) (operands : alternates true tokens = true)
    (arguments : argumentsMatch 1 [] tokens = true) :
    valuesAfter? 0 output = some 1 ↔
      (leadingOperators tokens).IsChain fun s t => t.pops s = false := by
  obtain ⟨tokens', sent, after, tokenized', run, closed, fitting, rfl⟩ :=
    parse_eq_ok_iff.mp accepted
  obtain rfl := Except.ok.inj (tokenized.symm.trans tokenized')
  have fit := (Adjacency.firstMisplaced?_eq_none_iff.mp fitting).1
  have top : Option.map PlacedToken.token (List.head? []) =
      Option.map (fun s => .symbol (.operator s)) none := rfl
  exact Stack.values_iff_of_leading run closed operands arguments fit .nil top

def FunctionSymbol.maximum : FunctionSymbol := ⟨"max", 2, by decide⟩

def Formula.maximum (left right : Formula) : Formula :=
  .call .maximum rfl "(" (.more left "," (.last right)) ")"

/-- The standard table with a function of two arguments in place of the others. -/
def SymbolTable.ofMaximum : SymbolTable :=
  { standard with functions := [.maximum] }

/-- The formula of `!!max(2-3,max(4,5)!)^6`. -/
def Formula.nested : Formula :=
  (((ofNat 2).difference (ofNat 3)).maximum
    ((ofNat 4).maximum (ofNat 5)).factorial).subfactorial.subfactorial.power (ofNat 6)

theorem evaluable_nested :
    tokenize .ofMaximum "!!max(2-3,max(4,5)!)^6" = .ok Formula.nested.listing ∧
      parse .ofMaximum "!!max(2-3,max(4,5)!)^6" = .ok Formula.nested.postorder ∧
        alternates true Formula.nested.listing = true ∧
          argumentsMatch 1 [] Formula.nested.listing = true ∧
            valuesAfter? 0 Formula.nested.postorder = some 1 := by
  have tokenized : tokenize .ofMaximum "!!max(2-3,max(4,5)!)^6" = .ok Formula.nested.listing := by
    decide +kernel
  have accepted : parse .ofMaximum "!!max(2-3,max(4,5)!)^6" = .ok Formula.nested.postorder := by
    decide +kernel
  have operands : alternates true Formula.nested.listing = true := by decide
  have arguments : argumentsMatch 1 [] Formula.nested.listing = true := by decide
  have leading : (leadingOperators Formula.nested.listing).IsChain fun s t => t.pops s = false :=
    .cons_cons rfl (.singleton _)
  exact ⟨tokenized, accepted, operands, arguments,
    (evaluable_iff_of_parse tokenized accepted operands arguments).mpr leading⟩

/-- The factorial, but left-associative. -/
def OperatorSymbol.leftFactorial : OperatorSymbol := { factorial with associativity := .left }

/-- The standard table with one operator, which is left-associative, in place of the others. -/
def SymbolTable.ofLeftFactorial : SymbolTable := { standard with operators := [.leftFactorial] }

/-- An operator without its first operand, a bracket with two arguments in place of one, and an
operator at the start that the next one pops. -/
theorem accepted_not_evaluable :
    (parse .standard "^ 2").map (valuesAfter? 0) = .ok none ∧
      (parse .standard "sin(1,2)").map (valuesAfter? 0) = .ok (some 2) ∧
        (parse .ofLeftFactorial "!!1").map (valuesAfter? 0) = .ok none := by
  refine ⟨?_, ?_, ?_⟩ <;> decide +kernel

end ReversePolish

import ReversePolish.Proofs.Stack

/-! # Brackets and the stack

`depthAfter?` counts the open brackets of a list of tokens, and fails at a closing bracket or a
divider where none is open.  The stack has no such counter, but as long as every function that takes
arguments comes right before an opening bracket it is the open brackets on the stack that are
counted (`Covered`).  So tokens whose depth can be counted can be received, whatever the operators
among them are (`exists_run_of_depthAfter?`). -/

namespace ReversePolish

/-- The number of open brackets after tokens, from a given number before them.  There is none if a
bracket closes, or a divider stands, where no bracket is open. -/
def depthAfter? : Nat → List Token → Option Nat
  | depth, [] => some depth
  | depth, .symbol (.opening _) :: tokens => depthAfter? (depth + 1) tokens
  | 0, .symbol (.closing _) :: _ => none
  | depth + 1, .symbol (.closing _) :: tokens => depthAfter? depth tokens
  | 0, .symbol (.divider _) :: _ => none
  | depth + 1, .symbol (.divider _) :: tokens => depthAfter? (depth + 1) tokens
  | depth, .number _ _ :: tokens => depthAfter? depth tokens
  | depth, .symbol (.function _) :: tokens => depthAfter? depth tokens
  | depth, .symbol (.operator _) :: tokens => depthAfter? depth tokens

/-- Whether an opening bracket comes right after every function that takes arguments. -/
def CallsOpen : List Token → Prop
  | .symbol (.function f) :: tokens =>
    (f.isConstant = false → tokens.head?.any Token.isOpening = true) ∧ CallsOpen tokens
  | _ :: tokens => CallsOpen tokens
  | [] => True

theorem CallsOpen.tail {token : Token} {tokens : List Token} (h : CallsOpen (token :: tokens)) :
    CallsOpen tokens := by
  unfold CallsOpen at h
  split at h
  · next eq =>
    obtain ⟨-, rfl⟩ := List.cons.inj eq
    exact h.2
  · next eq =>
    obtain ⟨-, rfl⟩ := List.cons.inj eq
    exact h
  · next eq => cases eq

namespace Stack

/-- A stack with a given number of open brackets, on which every function lies right below the
bracket of its arguments. -/
inductive Covered : Nat → Stack → Prop
  | nil : Covered 0 []
  | operator {depth p stack} : p.isOperator = true → Covered depth stack →
      Covered depth (p :: stack)
  | opening {depth p stack} : p.isOpening = true → Covered depth stack →
      Covered (depth + 1) (p :: stack)
  | call {depth p called stack} : p.isOpening = true → called.isFunction = true →
      Covered depth stack → Covered (depth + 1) (p :: called :: stack)

theorem isFunction_eq_false_of_isOperator {p : PlacedToken} (h : p.isOperator = true) :
    p.isFunction = false := by
  obtain ⟨token, index⟩ := p
  rcases token with _ | (_ | _ | _ | _ | _)
  case symbol.operator => rfl
  all_goals cases h

theorem isFunction_eq_false_of_isOpening {p : PlacedToken} (h : p.isOpening = true) :
    p.isFunction = false := by
  obtain ⟨token, index⟩ := p
  rcases token with _ | (_ | _ | _ | _ | _)
  case symbol.opening => rfl
  all_goals cases h

theorem Covered.head_not_function {depth : Nat} {stack : Stack} (h : Covered depth stack) :
    ∀ p ∈ stack.head?, p.isFunction = false := by
  intro p mem
  cases h with
  | nil => cases mem
  | operator operator _ =>
      obtain rfl := Option.some.inj mem
      exact isFunction_eq_false_of_isOperator operator
  | opening opened _ =>
      obtain rfl := Option.some.inj mem
      exact isFunction_eq_false_of_isOpening opened
  | call opened _ _ =>
      obtain rfl := Option.some.inj mem
      exact isFunction_eq_false_of_isOpening opened

theorem Covered.not_opening {stack : Stack} (h : Covered 0 stack) :
    ∀ p ∈ stack, p.isOpening = false := by
  generalize zero : 0 = depth at h
  induction h with
  | nil => simp
  | operator operator _ ih =>
      intro p mem
      rcases List.mem_cons.mp mem with rfl | mem
      · exact isOpening_eq_false_of_isOperator operator
      · exact ih zero p mem
  | opening => cases zero
  | call => cases zero

theorem Covered.dropWhile {depth : Nat} {stack : Stack} (h : Covered depth stack)
    (o : OperatorSymbol) : Covered depth (stack.dropWhile (PlacedToken.poppedBy o)) := by
  induction h with
  | nil => exact Covered.nil
  | @operator _ p stack operator below ih =>
      rw [List.dropWhile_cons]
      split
      · exact ih
      · exact Covered.operator operator below
  | @opening _ p stack opened below _ =>
      rw [List.dropWhile_cons, poppedBy_eq_false_of_isOpening opened, if_neg Bool.false_ne_true]
      exact Covered.opening opened below
  | @call _ p called stack opened function below _ =>
      rw [List.dropWhile_cons, poppedBy_eq_false_of_isOpening opened, if_neg Bool.false_ne_true]
      exact Covered.call opened function below

/-- Where a bracket is open, there are only operators above the innermost one, and what lies below
it is covered but for the function whose arguments it opened. -/
theorem Covered.exists_opening {depth : Nat} {stack : Stack} (h : Covered (depth + 1) stack) :
    ∃ operators opened below, stack = operators ++ opened :: below ∧
      (∀ p ∈ operators, p.isOperator = true) ∧ opened.isOpening = true ∧
        (Covered depth below ∨ ∃ called rest, below = called :: rest ∧
          called.isFunction = true ∧ Covered depth rest) := by
  generalize succ : depth + 1 = n at h
  induction h with
  | nil => cases succ
  | @operator _ p _ operator _ ih =>
      obtain ⟨operators, opened, below, rfl, all, hit, covered⟩ := ih succ
      refine ⟨p :: operators, opened, below, rfl, ?_, hit, covered⟩
      intro q mem
      rcases List.mem_cons.mp mem with rfl | mem
      · exact operator
      · exact all q mem
  | @opening _ p stack opened covered _ =>
      obtain rfl := Nat.succ.inj succ
      exact ⟨[], p, stack, rfl, by simp, opened, Or.inl covered⟩
  | @call _ p called stack opened function covered _ =>
      obtain rfl := Nat.succ.inj succ
      exact ⟨[], p, called :: stack, rfl, by simp, opened,
        Or.inr ⟨called, stack, rfl, function, covered⟩⟩

/-! ### Tokens on a covered stack -/

variable {depth index : Nat} {stack : Stack}

theorem Covered.step_operator (h : Covered depth stack) (o : OperatorSymbol) :
    ∃ sent after, stack.Step ⟨.symbol (.operator o), index⟩ sent after ∧ Covered depth after :=
  ⟨_, _, step_of_receive rfl, Covered.operator rfl (h.dropWhile o)⟩

theorem Covered.step_divider (h : Covered (depth + 1) stack) (literal : String) :
    ∃ sent after, stack.Step ⟨.symbol (.divider literal), index⟩ sent after ∧
      Covered (depth + 1) after := by
  obtain ⟨operators, opened, below, rfl, all, hit, covered⟩ := h.exists_opening
  refine ⟨operators, opened :: below, Step.divider all hit, ?_⟩
  rcases covered with covered | ⟨called, rest, rfl, function, covered⟩
  · exact Covered.opening hit covered
  · exact Covered.call hit function covered

theorem Covered.step_closing (h : Covered (depth + 1) stack) (literal : String) :
    ∃ sent after, stack.Step ⟨.symbol (.closing literal), index⟩ sent after ∧
      Covered depth after := by
  obtain ⟨operators, opened, below, rfl, all, hit, covered⟩ := h.exists_opening
  rcases covered with covered | ⟨called, rest, rfl, function, covered⟩
  · exact ⟨operators, below, Step.closing all hit covered.head_not_function, covered⟩
  · exact ⟨operators ++ [called], rest, Step.closingCall all hit function, covered⟩

/-- A stack that is covered, or will be as soon as the opening bracket that comes next is on it. -/
def Ready (depth : Nat) (stack : Stack) (tokens : List Token) : Prop :=
  Covered depth stack ∨ ∃ called below, stack = called :: below ∧ called.isFunction = true ∧
    tokens.head?.any Token.isOpening = true ∧ Covered depth below

theorem Ready.covered {tokens : List Token} (h : Ready depth stack tokens)
    (no_opening : tokens.head?.any Token.isOpening = false) : Covered depth stack := by
  rcases h with h | ⟨called, below, -, -, opening, -⟩
  · exact h
  · rw [no_opening] at opening
    cases opening

theorem Ready.opening {tokens : List Token} {literal : String} (h : Ready depth stack tokens) :
    Covered (depth + 1) (⟨.symbol (.opening literal), index⟩ :: stack) := by
  rcases h with h | ⟨called, below, rfl, function, -, covered⟩
  · exact Covered.opening rfl h
  · exact Covered.call rfl function covered

/-- Tokens whose depth can be counted can be received, and the depth is that of the stack. -/
theorem exists_run_of_depthAfter? {tokens : List Token} {final start : Nat}
    (calls : CallsOpen tokens) (counted : depthAfter? depth tokens = some final)
    (ready : Ready depth stack tokens) :
    ∃ sent after, stack.Run (place start tokens) sent after ∧ Covered final after := by
  induction tokens generalizing depth stack start with
  | nil =>
      obtain rfl := Option.some.inj counted
      exact ⟨[], stack, Run.nil, ready.covered rfl⟩
  | cons token tokens ih =>
      -- Each kind of token has to give one step, into a stack that is ready for the rest.
      have go {sent : List PlacedToken} {between : Stack} {depth' : Nat}
          (step : stack.Step ⟨token, start⟩ sent between)
          (counted' : depthAfter? depth' tokens = some final)
          (ready' : Ready depth' between tokens) :
          ∃ sent after, stack.Run (place start (token :: tokens)) sent after ∧
            Covered final after := by
        have rest : ∃ later after, between.Run (place (start + 1) tokens) later after ∧
            Covered final after := ih calls.tail counted' ready'
        obtain ⟨later, after, run, covered⟩ := rest
        exact ⟨sent ++ later, after, Run.cons step run, covered⟩
      rcases token with ⟨literal, value⟩ | (f | o | literal | literal | literal)
      · exact go Step.number counted (Or.inl (ready.covered rfl))
      · cases nullary : f.isConstant with
        | true => exact go (Step.constant nullary) counted (Or.inl (ready.covered rfl))
        | false =>
            exact go (Step.function nullary) counted
              (Or.inr ⟨_, stack, rfl, rfl, calls.1 nullary, ready.covered rfl⟩)
      · obtain ⟨sent, between, step, covered⟩ := (ready.covered rfl).step_operator o
        exact go step counted (Or.inl covered)
      · exact go Step.opening counted (Or.inl ready.opening)
      · cases depth with
        | zero => cases counted
        | succ depth =>
            obtain ⟨sent, between, step, covered⟩ := (ready.covered rfl).step_closing literal
            exact go step counted (Or.inl covered)
      · cases depth with
        | zero => cases counted
        | succ depth =>
            obtain ⟨sent, between, step, covered⟩ := (ready.covered rfl).step_divider literal
            exact go step counted (Or.inl covered)

end Stack

end ReversePolish

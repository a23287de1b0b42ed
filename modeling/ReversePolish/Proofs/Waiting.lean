import Mathlib.Data.List.Chain
import ReversePolish.Proofs.Conservation
import ReversePolish.Proofs.Formula

/-! # What waits between two tokens

The loop that brings an expression into postfix order reads a token, lets the stack receive it, and
goes on.  `Reordering.Reached` are the states between two tokens: those from which the loop still
has to do what it does on the whole expression (`Reached.run_eq`), one after each token that is
received (`Reached.exists_next`).

In all of them the operators that wait are settled: none would pop the operator right below it, so
it binds more tightly, or as tightly and is right-associative (`settled_of_reached`).  An operator
that arrives has popped all that it can before it is laid on the stack.  Whatever else a token takes
off the stack, it takes from the top, and what lies below is left as it was
(`Stack.Step.settled`). -/

namespace ReversePolish

theorem OperatorSymbol.pops_eq_false_iff {t s : OperatorSymbol} :
    t.pops s = false ↔ s.precedence.value < t.precedence.value ∨
      s.precedence.value = t.precedence.value ∧ t.associativity = .right := by
  rw [← Bool.not_eq_true, pops_iff, isLeftAssociative, decide_eq_true_iff]
  cases t.associativity <;> simp <;> omega

/-- Whether a token may lie right on top of another one: an operator may not if it pops it. -/
def PlacedToken.RestsOn (p q : PlacedToken) : Prop :=
  ∀ t, p.token = .symbol (.operator t) → q.poppedBy t = false

namespace Stack

/-- Whether no operator pops what it lies on. -/
def Settled (stack : Stack) : Prop := stack.IsChain PlacedToken.RestsOn

variable {stack after : Stack} {p : PlacedToken} {sent : List PlacedToken}

theorem Settled.cons_other (h : stack.Settled) (other : p.isOperator = false) :
    Settled (p :: stack) := by
  refine h.cons fun q _ t operator => ?_
  rw [PlacedToken.isOperator, operator] at other
  cases other

/-- A token leaves a settled stack settled. -/
theorem Step.settled (step : Step stack p sent after) (h : stack.Settled) : after.Settled := by
  cases step with
  | number => exact h
  | constant => exact h
  | function => exact h.cons_other rfl
  | opening => exact h.cons_other rfl
  | operator _ stop =>
      refine h.right_of_append.cons fun q mem t operator => ?_
      obtain rfl := Symbol.operator.inj (Token.symbol.inj operator)
      exact stop q mem
  | divider => exact h.right_of_append
  | closing => exact h.right_of_append.tail
  | closingCall => exact h.right_of_append.tail.tail

theorem Run.settled {ps : List PlacedToken} (run : Run stack ps sent after) (h : stack.Settled) :
    after.Settled := by
  induction run with
  | nil => exact h
  | cons step _ ih => exact ih (step.settled h)

theorem Settled.binds_tighter {above below : Stack} {q : PlacedToken} {t s : OperatorSymbol}
    (h : Settled (above ++ p :: q :: below)) (upper : p.token = .symbol (.operator t))
    (lower : q.token = .symbol (.operator s)) :
    s.precedence.value < t.precedence.value ∨
      s.precedence.value = t.precedence.value ∧ t.associativity = .right := by
  have rests := List.isChain_iff_forall_rel_of_append_cons_cons.mp h rfl t upper
  rw [PlacedToken.poppedBy, lower] at rests
  exact OperatorSymbol.pops_eq_false_iff.mp rests

end Stack

namespace Reordering

variable {table : SymbolTable} {expression : String} {s after : Scanner} {r later : Reordering}

/-- The states between two tokens: at first nothing has been read, and then one token after the
other is read and received. -/
inductive Reached (table : SymbolTable) (expression : String) : Scanner → Reordering → Prop
  | start : Reached table expression (Scanner.ofText expression) empty
  | next {s after : Scanner} {r later : Reordering} {token : Token} :
      Reached table expression s r → s.skipBlanks.rest ≠ [] →
      s.read table = (.ok token, after) → r.push token = .ok later →
      Reached table expression after later

/-- What the loop does on an expression is what it does from any state that it reaches. -/
theorem Reached.run_eq (h : Reached table expression s r) :
    run table (Scanner.ofText expression) empty = run table s r := by
  induction h with
  | start => rfl
  | next _ more read_eq push_eq ih =>
      rw [ih, run, dif_neg more]
      split <;> simp_all

theorem Reached.exists_next {front back : List Token} {fault : Option ScanError}
    (h : Reached table expression s r) (reads : s.Reads table (front ++ back) fault)
    (received : r.pushAll front = .ok later) :
    ∃ after, Reached table expression after later ∧ after.Reads table back fault := by
  induction front generalizing s r with
  | nil =>
      obtain rfl := Except.ok.inj received
      exact ⟨s, h, reads⟩
  | cons token front ih =>
      cases reads with
      | token more read_eq reads =>
          cases pushed : r.push token with
          | error e =>
              rw [pushAll_cons_of_error pushed] at received
              cases received
          | ok next =>
              rw [pushAll_cons_of_ok pushed] at received
              exact ih (h.next more read_eq pushed) reads received

theorem Reached.run (h : Reached table expression s r) :
    Stack.Run [] (place 0 r.read.toList) r.output.toList r.stack := by
  induction h with
  | start => exact Stack.Run.nil
  | next _ _ _ push_eq ih =>
      obtain ⟨sent, step, read_eq, output_eq⟩ := step_of_push push_eq
      rw [read_eq, output_eq, Array.toList_push, Array.toList_appendList, place_append,
        Nat.zero_add]
      exact ih.append (Stack.Run.single step)

/-- Between two tokens, opening brackets, operators and functions that take arguments wait, no
bracket or divider has been sent, and an operator that lies right on another one binds more tightly
than that, or as tightly and is right-associative. -/
theorem settled_of_reached (reached : Reached table expression s r) :
    (∀ p ∈ r.stack, p.waits = true) ∧ (∀ p ∈ r.output.toList, p.token.isPunctuation = false) ∧
      ∀ above below p q t u, r.stack = above ++ p :: q :: below →
        p.token = .symbol (.operator t) → q.token = .symbol (.operator u) →
          u.precedence.value < t.precedence.value ∨
            u.precedence.value = t.precedence.value ∧ t.associativity = .right := by
  refine ⟨reached.run.waits (by simp), reached.run.not_punctuation, ?_⟩
  intro above below p q t u stack_eq upper lower
  have settled := reached.run.settled List.isChain_nil
  rw [stack_eq] at settled
  exact settled.binds_tighter upper lower

/-- The formula of `sin(1-2*3^4^5!)`. -/
def sineOfPowers : Formula :=
  .sine (.last ((Formula.ofNat 1).difference
    ((Formula.ofNat 2).product ((Formula.ofNat 3).power
      ((Formula.ofNat 4).power (Formula.ofNat 5).factorial)))))

/-- Before the `!` of `sin(1-2*3^4^5!)` four operators wait, and of the two powers the second one is
on top. -/
theorem settled_of_reached_powers :
    ∃ s r, Reached .standard "sin(1-2*3^4^5!)" s r ∧
      r.stack.map (fun p => p.token.literal) = ["^", "^", "*", "-", "(", "sin"] ∧
      (∀ p ∈ r.stack, p.waits = true) ∧ (∀ p ∈ r.output.toList, p.token.isPunctuation = false) ∧
        ∀ above below p q t u, r.stack = above ++ p :: q :: below →
          p.token = .symbol (.operator t) → q.token = .symbol (.operator u) →
            u.precedence.value < t.precedence.value ∨
              u.precedence.value = t.precedence.value ∧ t.associativity = .right := by
  have tokenized : tokenize .standard "sin(1-2*3^4^5!)" =
      .ok (sineOfPowers.listing.take 11 ++ sineOfPowers.listing.drop 11) := by
    decide +kernel
  have waiting : (empty.pushAll (sineOfPowers.listing.take 11)).map
      (fun r => r.stack.map fun p => p.token.literal) =
        .ok ["^", "^", "*", "-", "(", "sin"] := by
    decide +kernel
  cases received : empty.pushAll (sineOfPowers.listing.take 11) with
  | error e =>
      rw [received] at waiting
      cases waiting
  | ok r =>
      rw [received] at waiting
      obtain ⟨s, reached, -⟩ := Reached.start.exists_next (tokenize_eq_ok_iff.mp tokenized) received
      exact ⟨s, r, reached, Except.ok.inj waiting, settled_of_reached reached⟩

end Reordering

end ReversePolish

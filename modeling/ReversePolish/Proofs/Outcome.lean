import ReversePolish.Proofs.Brackets
import ReversePolish.Proofs.Depth
import ReversePolish.Proofs.Formula
import ReversePolish.Proofs.Receiving

/-! # How structure fails

A closing bracket or a divider outside of all brackets is stray.  Where an opening bracket comes
right after every function that takes arguments, the outcome on an expression is told by its
brackets and dividers alone (`ofExpression_outcome`): the first stray token is reported, then a
bracket that is left open, and there is no other error.

The operators among the tokens do not matter because a stack that is `Covered` has nothing but
operators above its innermost bracket, and none at all when no bracket is open. -/

namespace ReversePolish

/-- Whether the token at an index is a closing bracket or a divider outside of all brackets. -/
def IsStray (tokens : List Token) (index : Nat) : Prop :=
  (∃ a ∈ tokens[index]?, a.isClosing = true ∨ a.isDivider = true) ∧
    bracketDepth (tokens.take index) = 0

instance (tokens : List Token) (index : Nat) : Decidable (IsStray tokens index) :=
  inferInstanceAs (Decidable (_ ∧ _))

theorem isStray_append_cons_iff {front back : List Token} {a : Token} :
    IsStray (front ++ a :: back) front.length ↔
      (a.isClosing = true ∨ a.isDivider = true) ∧ bracketDepth front = 0 := by
  simp [IsStray]

theorem isStray_append_iff {front back : List Token} {index : Nat} (inside : index < front.length) :
    IsStray (front ++ back) index ↔ IsStray front index := by
  unfold IsStray
  rw [List.getElem?_append_left inside, List.take_append_of_le_length (Nat.le_of_lt inside)]

theorem exists_of_isStray {tokens : List Token} {index : Nat} (h : IsStray tokens index) :
    ∃ front a back, tokens = front ++ a :: back ∧ front.length = index ∧
      (a.isClosing = true ∨ a.isDivider = true) ∧ bracketDepth front = 0 := by
  obtain ⟨⟨a, at_index, stays⟩, depth⟩ := h
  obtain ⟨inside, rfl⟩ := List.getElem?_eq_some_iff.mp at_index
  refine ⟨tokens.take index, tokens[index], tokens.drop (index + 1), ?_, ?_, stays, depth⟩
  · rw [← List.drop_eq_getElem_cons inside, List.take_append_drop]
  · exact List.length_take_of_le (Nat.le_of_lt inside)

/-! ### Counting brackets -/

theorem depthAfter?_of_no_stray {tokens : List Token} {depth : Nat}
    (none_stray : ∀ front a back, tokens = front ++ a :: back →
      a.isClosing = true ∨ a.isDivider = true → (depth : Int) + bracketDepth front ≠ 0) :
    ∃ final : Nat, depthAfter? depth tokens = some final ∧
      (final : Int) = depth + bracketDepth tokens := by
  induction tokens generalizing depth with
  | nil => exact ⟨depth, by cases depth <;> rfl, by simp⟩
  | cons a tokens ih =>
      -- Whatever depth the first token leaves, none of the others is stray from there.
      have go {next : Nat} (next_eq : (next : Int) = depth + bracketDepth [a]) :
          ∃ final : Nat, depthAfter? next tokens = some final ∧
            (final : Int) = depth + bracketDepth (a :: tokens) := by
        have later : ∃ final : Nat, depthAfter? next tokens = some final ∧
            (final : Int) = next + bracketDepth tokens := by
          apply ih
          intro front b back eq stays
          have := none_stray (a :: front) b back (by rw [eq, List.cons_append]) stays
          rw [bracketDepth_cons] at this
          omega
        obtain ⟨final, counted, final_eq⟩ := later
        refine ⟨final, counted, ?_⟩
        rw [bracketDepth_cons]
        omega
      have inside (stays : a.isClosing = true ∨ a.isDivider = true) : depth ≠ 0 := by
        have := none_stray [] a tokens rfl stays
        simpa using this
      rcases a with _ | (_ | _ | _ | literal | _)
      case symbol.opening => exact go rfl
      case symbol.closing =>
        obtain ⟨below, rfl⟩ := Nat.exists_eq_succ_of_ne_zero (inside (Or.inl rfl))
        refine @go below ?_
        rw [bracketDepth_closing]
        omega
      case symbol.divider =>
        obtain ⟨below, rfl⟩ := Nat.exists_eq_succ_of_ne_zero (inside (Or.inr rfl))
        exact @go (below + 1) (Int.add_zero _).symm
      all_goals
        have counted := @go depth (Int.add_zero _).symm
        cases depth <;> exact counted

theorem CallsOpen.front {front back : List Token} {a : Token}
    (h : CallsOpen (front ++ a :: back)) (not_opening : a.isOpening = false) : CallsOpen front := by
  induction front with
  | nil => trivial
  | cons b front ih =>
      have later : CallsOpen front := ih h.tail
      rcases b with _ | (f | _ | _ | _ | _)
      case symbol.function =>
        refine ⟨fun positive => ?_, later⟩
        have called := h.1 positive
        cases front with
        | nil => simp [not_opening] at called
        | cons c front => exact called
      all_goals exact later

/-! ### Refused tokens -/

namespace Stack

theorem Covered.unwind?_eq_none {stack : Stack} (h : Covered 0 stack) : stack.unwind? = none := by
  cases unwound : stack.unwind? with
  | none => rfl
  | some move =>
      obtain ⟨operators, opened, below, rfl, -, hit, -⟩ := exists_of_unwind?_eq_some unwound
      rw [h.not_opening opened (by simp)] at hit
      cases hit

theorem Covered.receive_closing {stack : Stack} (h : Covered 0 stack) (literal : String)
    (index : Nat) :
    stack.receive ⟨.symbol (.closing literal), index⟩ = .error (.unmatchedClosing index) := by
  simp [receive, h.unwind?_eq_none]

theorem Covered.receive_divider {stack : Stack} (h : Covered 0 stack) (literal : String)
    (index : Nat) :
    stack.receive ⟨.symbol (.divider literal), index⟩ = .error (.strayDivider index) := by
  simp [receive, h.unwind?_eq_none]

end Stack

/-! ### The outcome -/

namespace Reordering

variable {tokens : List Token}

/-- Tokens without a stray one are received, and their depth is that of the stack. -/
theorem exists_run_of_no_stray (calls : CallsOpen tokens) (none_stray : ∀ i, ¬ IsStray tokens i) :
    ∃ (sent : List PlacedToken) (after : Stack) (final : Nat),
      Stack.Run [] (place 0 tokens) sent after ∧ Stack.Covered final after ∧
        (final : Int) = bracketDepth tokens := by
  have counted : ∃ final : Nat, depthAfter? 0 tokens = some final ∧
      (final : Int) = (0 : Nat) + bracketDepth tokens := by
    apply depthAfter?_of_no_stray
    rintro front a back rfl stays zero
    exact none_stray front.length (isStray_append_cons_iff.mpr ⟨stays, by simpa using zero⟩)
  obtain ⟨final, counted, final_eq⟩ := counted
  obtain ⟨sent, after, run, covered⟩ := Stack.exists_run_of_depthAfter? calls counted
    (Or.inl Stack.Covered.nil)
  exact ⟨sent, after, final, run, covered, by simpa using final_eq⟩

/-- Before the first stray token, all tokens are received, and no bracket is open then. -/
theorem exists_run_of_first_stray {front back : List Token} {a : Token}
    (calls : CallsOpen (front ++ a :: back)) (stays : a.isClosing = true ∨ a.isDivider = true)
    (depth : bracketDepth front = 0)
    (first : ∀ i < front.length, ¬ IsStray (front ++ a :: back) i) :
    ∃ sent after, Stack.Run [] (place 0 front) sent after ∧ Stack.Covered 0 after := by
  have not_opening : a.isOpening = false := by
    rcases a with _ | (_ | _ | _ | _ | _)
    case symbol.opening => simp [Token.isClosing, Token.isDivider] at stays
    all_goals rfl
  have none_stray : ∀ i, ¬ IsStray front i := by
    intro i stray
    have inside : i < front.length := by
      obtain ⟨⟨b, at_index, -⟩, -⟩ := stray
      exact (List.getElem?_eq_some_iff.mp at_index).1
    exact first i inside ((isStray_append_iff inside).mpr stray)
  obtain ⟨sent, after, final, run, covered, final_eq⟩ :=
    exists_run_of_no_stray (calls.front not_opening) none_stray
  obtain rfl : final = 0 := by omega
  exact ⟨sent, after, run, covered⟩

theorem ofTokens_of_refused {front back : List Token} {a : Token} {sent : List PlacedToken}
    {after : Stack} {e : StructureError} (run : Stack.Run [] (place 0 front) sent after)
    (refused : after.receive ⟨a, front.length⟩ = .error e) :
    ofTokens (front ++ a :: back) = .error e := by
  have size : (empty.read.size + front.length) = front.length := Nat.zero_add _
  unfold ofTokens
  rw [pushAll_of_refused (r := empty) run (by rwa [size])]

theorem ofTokens_of_open {sent : List PlacedToken} {after : Stack} {depth : Nat}
    (run : Stack.Run [] (place 0 tokens) sent after) (covered : Stack.Covered (depth + 1) after) :
    ofTokens tokens = .error .unclosedOpening := by
  obtain ⟨operators, opened, below, rfl, -, hit, -⟩ := covered.exists_opening
  unfold ofTokens
  rw [pushAll_of_run (r := empty) run]
  simp [finish, hit]

/-- Where an opening bracket comes right after every function that takes arguments, the first stray
token of an expression is reported, or else that a bracket is left open, or else nothing. -/
theorem ofExpression_outcome {table : SymbolTable} {expression : String}
    (tokenized : tokenize table expression = .ok tokens) (calls : CallsOpen tokens) :
    (∀ i, IsStray tokens i → (∀ k < i, ¬ IsStray tokens k) →
      (∀ literal, tokens[i]? = some (.symbol (.closing literal)) →
        ofExpression table expression = .error (.structural (.unmatchedClosing i))) ∧
      ∀ literal, tokens[i]? = some (.symbol (.divider literal)) →
        ofExpression table expression = .error (.structural (.strayDivider i))) ∧
    ((∀ i, ¬ IsStray tokens i) →
      (0 < bracketDepth tokens →
        ofExpression table expression = .error (.structural .unclosedOpening)) ∧
      (bracketDepth tokens ≤ 0 → ∃ r, ofExpression table expression = .ok r)) := by
  rw [ofExpression_of_tokenize tokenized]
  constructor
  · intro i stray first
    obtain ⟨front, a, back, rfl, rfl, stays, depth⟩ := exists_of_isStray stray
    obtain ⟨sent, after, run, covered⟩ := exists_run_of_first_stray calls stays depth first
    have token_eq : (front ++ a :: back)[front.length]? = some a := by simp
    rw [token_eq]
    constructor
    · intro literal eq
      obtain rfl := Option.some.inj eq
      rw [ofTokens_of_refused run (covered.receive_closing literal _), Except.mapError]
    · intro literal eq
      obtain rfl := Option.some.inj eq
      rw [ofTokens_of_refused run (covered.receive_divider literal _), Except.mapError]
  · intro none_stray
    obtain ⟨sent, after, final, run, covered, final_eq⟩ := exists_run_of_no_stray calls none_stray
    constructor
    · intro positive
      obtain ⟨depth, rfl⟩ : ∃ depth, final = depth + 1 := ⟨final - 1, by omega⟩
      rw [ofTokens_of_open run covered, Except.mapError]
    · intro balanced
      obtain rfl : final = 0 := by omega
      rw [ofTokens_of_run run covered.not_opening]
      exact ⟨_, rfl⟩

/-- The formula of `sin(1-2)`. -/
def sineOfDifference : Formula := .sine (.last ((Formula.ofNat 1).difference (Formula.ofNat 2)))

/-- Of two stray tokens the first one is reported, and a stray one before a bracket that is left
open. -/
theorem ofExpression_outcome_sine :
    (tokenize .standard "sin(1-2),)(" = .ok (sineOfDifference.listing ++
        [.symbol (.divider ","), .symbol (.closing ")"), .symbol (.opening "(")]) ∧
      CallsOpen (sineOfDifference.listing ++
        [.symbol (.divider ","), .symbol (.closing ")"), .symbol (.opening "(")]) ∧
      ofExpression .standard "sin(1-2),)(" = .error (.structural (.strayDivider 6))) ∧
    (tokenize .standard "sin(1-2)" = .ok sineOfDifference.listing ∧
      CallsOpen sineOfDifference.listing ∧ ∃ r, ofExpression .standard "sin(1-2)" = .ok r) := by
  have first_tokenized : tokenize .standard "sin(1-2),)(" = .ok (sineOfDifference.listing ++
      [.symbol (.divider ","), .symbol (.closing ")"), .symbol (.opening "(")]) := by
    decide +kernel
  have first_calls : CallsOpen (sineOfDifference.listing ++
      [.symbol (.divider ","), .symbol (.closing ")"), .symbol (.opening "(")]) :=
    ⟨fun _ => rfl, trivial⟩
  have tokenized : tokenize .standard "sin(1-2)" = .ok sineOfDifference.listing := by
    decide +kernel
  have calls : CallsOpen sineOfDifference.listing := ⟨fun _ => rfl, trivial⟩
  refine ⟨⟨first_tokenized, first_calls, ?_⟩, tokenized, calls, ?_⟩
  · have outcome := (ofExpression_outcome first_tokenized first_calls).1 6 (by decide) (by decide)
    exact outcome.2 "," rfl
  · have none_stray : ∀ i, ¬ IsStray sineOfDifference.listing i := by
      intro i stray
      have inside : i < 6 := by
        obtain ⟨⟨a, at_index, -⟩, -⟩ := stray
        exact (List.getElem?_eq_some_iff.mp at_index).1
      revert stray
      revert i
      decide
    exact ((ofExpression_outcome tokenized calls).2 none_stray).2 (by decide)

end Reordering

end ReversePolish

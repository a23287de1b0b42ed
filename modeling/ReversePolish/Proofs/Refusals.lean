import ReversePolish.Proofs.Brackets
import ReversePolish.Proofs.Continuing
import ReversePolish.Proofs.Groups

/-! # What a refusal tells

A divider or a closing bracket is refused where the top of the stack, operators apart, is not an
open bracket.  Either no bracket is open at all, which is what the error says in words, or a
function that takes arguments waits on top of the brackets that are open.  Such a function has a
`PendingCall`: brackets pair up since it was read, and none of them opens its arguments.  So the
errors of structure tell the truth about the brackets of an expression unless a call is pending
(`brackets_of_structure_error`), as in `(sin)`, where the bracket that closes is reported although
it has an opening one.

Whether a call is pending can be told from the tokens because a function keeps what lies below it
until it is called (`Stack.Run.above_function`): what has been read since then was received as it
would be on the empty stack, and its brackets are counted there. -/

namespace ReversePolish

/-! ### Calls -/

/-- Operands and calls, which leave on the stack what they find there. -/
inductive Complete : List Token → Prop
  | nil : Complete []
  | operand {a rest} : a.isOperand = true → Complete rest → Complete (a :: rest)
  | call {f values opening body closing rest} : f.isConstant = false → Complete values →
      Balanced body → Complete rest →
      Complete (.symbol (.function f) :: (values ++
        .symbol (.opening opening) :: (body ++ .symbol (.closing closing) :: rest)))

/-- Whether a function still takes its arguments after tokens: brackets pair up after the function,
and none of them opens its arguments.  The arguments are opened by the first bracket that has only
operands and other calls between the function and itself. -/
def PendingCall (tokens : List Token) : Prop :=
  ∃ before f between, tokens = before ++ .symbol (.function f) :: between ∧
    f.isConstant = false ∧ Balanced between ∧
      ∀ values opening rest, Complete values →
        between ≠ values ++ .symbol (.opening opening) :: rest

theorem CallsOpen.not_pendingCall {tokens : List Token} (h : CallsOpen tokens) :
    ¬ PendingCall tokens := by
  rintro ⟨before, f, between, rfl, positive, -, not_opened⟩
  have opened : between.head?.any Token.isOpening = true := by
    induction before with
    | nil => exact h.1 positive
    | cons a before ih => exact ih h.tail
  cases between with
  | nil => cases opened
  | cons a rest =>
      rcases a with _ | (_ | _ | literal | _ | _) <;> try cases opened
      exact not_opened [] literal rest .nil rfl

/-! ### Depth below zero -/

theorem exists_eq_closing_of_neg {a : Token} (neg : bracketDepth [a] < 0) :
    ∃ literal, a = .symbol (.closing literal) := by
  rcases a with _ | (_ | _ | _ | literal | _)
  case symbol.closing => exact ⟨literal, rfl⟩
  all_goals cases neg

theorem exists_closing_of_neg {tokens : List Token} {depth : Int} (nonneg : 0 ≤ depth)
    (neg : depth + bracketDepth tokens < 0) :
    ∃ body literal later, tokens = body ++ .symbol (.closing literal) :: later ∧
      (∀ front, front <+: body → 0 ≤ depth + bracketDepth front) ∧
        depth + bracketDepth body = 0 := by
  induction tokens generalizing depth with
  | nil =>
      rw [bracketDepth_nil] at neg
      omega
  | cons a tokens ih =>
      by_cases closes : depth + bracketDepth [a] < 0
      · obtain ⟨literal, rfl⟩ := exists_eq_closing_of_neg (a := a) (by omega)
        rw [bracketDepth_closing] at closes
        refine ⟨[], literal, tokens, rfl, ?_, ?_⟩
        · intro front is_front
          rw [List.prefix_nil.mp is_front, bracketDepth_nil, Int.add_zero]
          exact nonneg
        · rw [bracketDepth_nil]
          omega
      · rw [bracketDepth_cons, ← Int.add_assoc] at neg
        obtain ⟨body, literal, later, rfl, nonneg_body, closed⟩ := ih (Int.not_lt.mp closes) neg
        refine ⟨a :: body, literal, later, rfl, ?_, ?_⟩
        · intro front is_front
          rcases List.prefix_cons_iff.mp is_front with rfl | ⟨rest, rfl, is_rest⟩
          · rw [bracketDepth_nil, Int.add_zero]
            exact nonneg
          · rw [bracketDepth_cons, ← Int.add_assoc]
            exact nonneg_body rest is_rest
        · rw [bracketDepth_cons, ← Int.add_assoc]
          exact closed

/-! ### Below a function -/

namespace Stack

variable {stack base after : Stack} {called p : PlacedToken} {ps sent : List PlacedToken}

theorem Step.countP_pos_of_function (h : Step (stack ++ called :: base) p sent after)
    (function : called.isFunction = true)
    (ends : p.token.isClosing = true ∨ p.token.isDivider = true) :
    0 < stack.countP PlacedToken.isOpening := by
  -- The bracket that the token unwinds to lies above the function, which no unwinding passes.
  have cut {operators below : Stack} {opened : PlacedToken}
      (eq : stack ++ called :: base = operators ++ opened :: below)
      (all : ∀ q ∈ operators, q.isOperator = true) (hit : opened.isOpening = true) :
      0 < stack.countP PlacedToken.isOpening := by
    have out : called ∉ operators := by
      intro mem
      have operator := all called mem
      rw [isOperator_eq_false_of_isFunction function] at operator
      cases operator
    obtain ⟨left, rfl, rest_eq⟩ := exists_left_of_append eq out
    cases left with
    | nil =>
        obtain rfl := (List.cons.inj rest_eq).1
        rw [isOpening_eq_false_of_isFunction function] at hit
        cases hit
    | cons q left =>
        obtain rfl := (List.cons.inj rest_eq).1
        exact List.countP_pos_iff.mpr ⟨opened, by simp, hit⟩
  generalize eq : stack ++ called :: base = whole at h
  cases h with
  | divider all hit => exact cut eq all hit
  | closing all hit _ => exact cut eq all hit
  | closingCall all hit _ => exact cut eq all hit
  | _ => simp [Token.isClosing, Token.isDivider] at ends

/-- Until a function is called, tokens are received as on the empty stack. -/
theorem Run.above_function (h : Run (stack ++ called :: base) ps sent after)
    (function : called.isFunction = true) :
    (∃ stack' : Stack, after = stack' ++ called :: base ∧ Run stack ps sent stack') ∨
      ∀ q ∈ after, q ∈ base ∨ q ∈ ps := by
  generalize eq : stack ++ called :: base = whole at h
  induction h generalizing stack with
  | nil => exact Or.inl ⟨stack, eq.symm, Run.nil⟩
  | @cons _ between _ p ps _ _ step rest ih =>
      subst eq
      rcases step.above (isOperator_eq_false_of_isFunction function)
          (step.countP_pos_of_function function) with ⟨stack', rfl, alone⟩ | ⟨-, rfl⟩
      · rcases ih rfl with ⟨stack'', rfl, run⟩ | sources
        · exact Or.inl ⟨stack'', rfl, Run.cons alone run⟩
        · exact Or.inr fun q mem => (sources q mem).imp_right (List.mem_cons_of_mem p)
      -- The function was called here: what waits from now on comes from below it or is read later.
      · refine Or.inr fun q mem => ?_
        exact (rest.mem q (List.mem_append_right _ mem)).imp_right (List.mem_cons_of_mem p)

theorem Run.exists_called {body later : List Token} {opening closing : String} {start index : Nat}
    (h : Run (⟨.symbol (.opening opening), index⟩ :: called :: base)
      (place start (body ++ .symbol (.closing closing) :: later)) sent after)
    (function : called.isFunction = true) (balanced : Balanced body) :
    ∃ rest, Run base (place (start + body.length + 1) later) rest after := by
  obtain ⟨-, rest, -, -, -, run⟩ :=
    @exists_segmentwise [] _ _ _ _ _ _ _ _ _ rfl h rfl (by simpa using balanced.nonneg)
      (by simpa using balanced.closed)
  rw [close_call function] at run
  exact ⟨rest, run⟩

theorem Run.eq_of_complete {tokens : List Token} {start : Nat} (complete : Complete tokens)
    (h : Run stack (place start tokens) sent after) : after = stack := by
  induction complete generalizing stack start sent after with
  | nil =>
      cases h
      rfl
  | @operand a rest operand _ ih =>
      cases h with
      | cons step rest =>
          cases step with
          | number => exact ih rest
          | constant => exact ih rest
          | function positive => simp [Token.isOperand, positive] at operand
          | _ => cases operand
  | @call f values opening body closing rest positive _ balanced _ ih_values ih_rest =>
      cases h with
      | cons step run =>
          obtain ⟨-, rfl⟩ := step.unique (Step.function positive)
          rw [place_append] at run
          obtain ⟨_, between, _, -, run_values, run⟩ := run.of_append
          obtain rfl := ih_values run_values
          cases run with
          | cons step run =>
              obtain ⟨-, rfl⟩ := step.unique Step.opening
              obtain ⟨_, run⟩ := run.exists_called rfl balanced
              exact ih_rest run

theorem Run.source_of_opened {values rest : List Token} {opening : String} {start : Nat}
    (h : Run (called :: base) (place start (values ++ .symbol (.opening opening) :: rest))
      sent after)
    (function : called.isFunction = true) (complete : Complete values)
    (balanced : Balanced (values ++ .symbol (.opening opening) :: rest)) :
    ∀ q ∈ after, q ∈ base ∨ q ∈ place start (values ++ .symbol (.opening opening) :: rest) := by
  -- The bracket is open where the rest starts, so the rest closes it before it ends.
  have closes : (0 : Int) + bracketDepth rest < 0 := by
    have before := balanced.nonneg values (List.prefix_append ..)
    have whole := balanced.closed
    rw [bracketDepth_append, bracketDepth_cons, bracketDepth_opening] at whole
    omega
  obtain ⟨body, literal, later, rfl, nonneg, closed⟩ := exists_closing_of_neg (Int.le_refl 0) closes
  have balanced_body : Balanced body := ⟨by simpa using nonneg, by simpa using closed⟩
  rw [place_append] at h ⊢
  obtain ⟨_, _, _, -, run_values, run⟩ := h.of_append
  obtain rfl := run_values.eq_of_complete complete
  cases run with
  | cons step run =>
      obtain ⟨-, rfl⟩ := step.unique Step.opening
      obtain ⟨_, run_later⟩ := run.exists_called function balanced_body
      intro q mem
      refine (run_later.mem q (List.mem_append_right _ mem)).imp_right fun read => ?_
      rw [place, place_append, place]
      exact List.mem_append_right _ (List.mem_cons_of_mem _
        (List.mem_append_right _ (List.mem_cons_of_mem _ read)))

/-! ### Refused tokens -/

theorem unwind?_eq_none_of_refused {e : StructureError} (refused : stack.receive p = .error e) :
    stack.unwind? = none := by
  cases unwound : stack.unwind? with
  | none => rfl
  | some move =>
      unfold receive at refused
      rw [unwound] at refused
      split at refused
      case h_2 => split at refused <;> cases refused
      all_goals cases refused

theorem operators_or_function_of_unwind? (h : stack.unwind? = none)
    (waiting : ∀ q ∈ stack, q.waits = true) :
    (∀ q ∈ stack, q.isOperator = true) ∨
      ∃ operators called below, stack = operators ++ called :: below ∧
        (∀ q ∈ operators, q.isOperator = true) ∧ called.isFunction = true := by
  have whole := @List.takeWhile_append_dropWhile _ PlacedToken.isOperator stack
  have all : ∀ q ∈ stack.takeWhile PlacedToken.isOperator, q.isOperator = true :=
    fun q mem => List.mem_takeWhile_imp mem
  have stop := List.head?_dropWhile_not PlacedToken.isOperator stack
  cases left : stack.dropWhile PlacedToken.isOperator with
  | nil =>
      rw [left, List.append_nil] at whole
      rw [whole] at all
      exact Or.inl all
  | cons called below =>
      rw [left] at whole stop
      refine Or.inr ⟨_, called, below, whole.symm, all, ?_⟩
      have not_opening : called.isOpening = false := by
        by_contra opened
        rw [← whole, unwind?_append all (by simpa using opened)] at h
        cases h
      have mem : called ∈ stack := by
        rw [← whole]
        exact List.mem_append_right _ List.mem_cons_self
      have waits := waiting called mem
      obtain ⟨token, index⟩ := called
      rcases token with _ | (_ | _ | _ | _ | _)
      case symbol.function => rfl
      case symbol.operator => cases stop
      case symbol.opening => cases not_opening
      all_goals cases waits

theorem Run.balanced {tokens : List Token} {start : Nat}
    (h : Run [] (place start tokens) sent after)
    (closed : ∀ q ∈ after, q.isOpening = false) : Balanced tokens := by
  -- The depth of a front is the number of brackets that wait after it.
  constructor
  · rintro front ⟨rest, rfl⟩
    rw [place_append] at h
    obtain ⟨_, _, _, -, run_front, -⟩ := h.of_append
    have := run_front.countP_isOpening
    rw [List.countP_nil] at this
    omega
  · have none_open : after.countP PlacedToken.isOpening = 0 := by
      simpa using closed
    have := h.countP_isOpening
    rw [none_open, List.countP_nil] at this
    omega

/-- The call of a function that waits with nothing but operators above it is pending. -/
theorem Run.pendingCall {tokens : List Token} {operators below : Stack}
    (h : Run [] (place 0 tokens) sent (operators ++ called :: below))
    (all : ∀ q ∈ operators, q.isOperator = true) (function : called.isFunction = true) :
    PendingCall tokens := by
  have read := (h.mem called (by simp)).resolve_left List.not_mem_nil
  have waits := h.waits (by simp) called (by simp)
  obtain ⟨before, between, rfl, index_eq⟩ := exists_append_of_mem_place read
  rw [Nat.zero_add] at index_eq
  obtain ⟨token, index⟩ := called
  rcases token with _ | (f | _ | _ | _ | _) <;> try cases function
  have positive : f.isConstant = false := by
    simpa [PlacedToken.waits] using waits
  dsimp only at index_eq h
  subst index_eq
  rw [place_append, Nat.zero_add] at h
  obtain ⟨_, base, _, -, run_before, run⟩ := h.of_append
  cases run with
  | cons step run =>
      obtain ⟨-, rfl⟩ := step.unique (Step.function positive)
      -- The function was read after what lies below it and before what is read later.
      have apart : ∀ q, q ∈ base ∨ q ∈ place (before.length + 1) between →
          q ≠ ⟨.symbol (.function f), before.length⟩ := by
        rintro q (earlier | later) rfl
        · exact Nat.lt_irrefl _ (run_before.index_lt _ (List.mem_append_right _ earlier))
        · exact Nat.not_succ_le_self _ (start_le_of_mem_place later)
      have not_called : ¬ ∀ q ∈ operators ++ ⟨.symbol (.function f), before.length⟩ :: below,
          q ∈ base ∨ q ∈ place (before.length + 1) between := by
        intro source
        exact apart ⟨.symbol (.function f), before.length⟩ (source _ (by simp)) rfl
      obtain ⟨above, eq, alone⟩ :=
        (@Run.above_function [] _ _ _ _ _ run rfl).resolve_right not_called
      have not_above : ⟨.symbol (.function f), before.length⟩ ∉ above := by
        intro mem
        have read := (alone.mem _ (List.mem_append_right _ mem)).resolve_left List.not_mem_nil
        exact apart _ (Or.inr read) rfl
      have not_base : ⟨.symbol (.function f), before.length⟩ ∉ base :=
        fun mem => apart _ (Or.inl mem) rfl
      obtain ⟨rfl, -, rfl⟩ := (List.append_cons_inj_of_notMem not_above not_base).mp eq.symm
      have balanced : Balanced between := alone.balanced (not_opening_of_operators all)
      refine ⟨before, f, between, rfl, positive, balanced, ?_⟩
      rintro values opening rest complete rfl
      exact not_called (run.source_of_opened rfl complete balanced)

end Stack

/-! ### Errors of structure -/

variable {table : SymbolTable} {expression : String}

theorem bracketDepth_eq_zero_or_pendingCall {tokens : List Token} {sent : List PlacedToken}
    {after : Stack} (run : Stack.Run [] (place 0 tokens) sent after) (h : after.unwind? = none) :
    bracketDepth tokens = 0 ∨ PendingCall tokens := by
  rcases Stack.operators_or_function_of_unwind? h (run.waits (by simp)) with
    all | ⟨operators, called, below, rfl, all, function⟩
  · left
    exact (run.balanced (Stack.not_opening_of_operators all)).closed
  · exact Or.inr (run.pendingCall all function)

/-- The tokens of an expression up to the first error of reading. -/
def tokensRead (table : SymbolTable) (expression : String) : List Token :=
  ((Scanner.ofText expression).tokens table).1

theorem Reordering.exists_opening_of_finish {r : Reordering} {e : StructureError}
    (h : r.finish = .error e) : ∃ q ∈ r.stack, q.isOpening = true := by
  by_contra none_open
  rw [finish_of_closed (by simpa using none_open)] at h
  cases h

theorem refused_or_open_of_parse {e : StructureError}
    (failed : parse table expression = .error (.reordering (.structural e))) :
    (∃ front token back sent after, tokensRead table expression = front ++ token :: back ∧
      Stack.Run [] (place 0 front) sent after ∧
        after.receive ⟨token, front.length⟩ = .error e) ∨
    e = .unclosedOpening ∧ tokenize table expression = .ok (tokensRead table expression) ∧
      ∃ sent after, Stack.Run [] (place 0 (tokensRead table expression)) sent after ∧
        ∃ q ∈ after, q.isOpening = true := by
  obtain ⟨tokens, fault, reads⟩ := Scanner.exists_reads table (Scanner.ofText expression)
  have read_eq : tokensRead table expression = tokens := by
    rw [tokensRead, Scanner.tokens_eq_of_reads reads rfl]
  rw [read_eq]
  have refused := Reordering.ofExpression_of_parse_error failed
  rw [Reordering.ofExpression_of_reads reads] at refused
  cases received : Reordering.empty.pushAll tokens with
  -- A token is refused before a later error of reading is met.
  | error e' =>
      rw [received] at refused
      obtain rfl := ReorderingError.structural.inj (Except.error.inj refused)
      obtain ⟨front, token, back, sent, after, rfl, run, stopped⟩ :=
        Reordering.exists_refused_of_pushAll received
      have index_eq : Reordering.empty.read.size + front.length = front.length := Nat.zero_add _
      rw [index_eq] at stopped
      exact Or.inl ⟨front, token, back, sent, after, rfl, run, stopped⟩
  | ok r =>
      rw [received] at refused
      cases fault with
      | some x => cases refused
      | none =>
          have all_read : Reordering.empty.run table (Scanner.ofText expression) = .ok r := by
            rw [Reordering.run_eq_of_reads reads, received]
            rfl
          obtain ⟨tokens', sent, reads', run, -, -⟩ := Reordering.exists_run_of_ok all_read
          have tokenized := tokenize_eq_ok_iff.mpr reads
          obtain rfl := Except.ok.inj (tokenized.symm.trans (tokenize_eq_ok_iff.mpr reads'))
          dsimp only [Option.elim] at refused
          cases finished : r.finish with
          | ok done =>
              rw [finished] at refused
              cases refused
          | error e' =>
              rw [finished] at refused
              obtain rfl := ReorderingError.structural.inj (Except.error.inj refused)
              refine Or.inr ⟨?_, tokenized, sent, r.stack, run, ?_⟩
              · exact Reordering.eq_unclosedOpening_of_finish finished
              · exact Reordering.exists_opening_of_finish finished

theorem depth_of_parse {e : StructureError}
    (failed : parse table expression = .error (.reordering (.structural e))) :
    (∃ i a, (tokensRead table expression)[i]? = some a ∧
      ((a.isDivider = true ∧ e = .strayDivider i) ∨
        (a.isClosing = true ∧ e = .unmatchedClosing i)) ∧
      (bracketDepth ((tokensRead table expression).take i) = 0 ∨
        PendingCall ((tokensRead table expression).take i))) ∨
    e = .unclosedOpening ∧ tokenize table expression = .ok (tokensRead table expression) ∧
      0 < bracketDepth (tokensRead table expression) := by
  rcases refused_or_open_of_parse failed with
    ⟨front, a, back, sent, after, read_eq, run, refused⟩ |
      ⟨rfl, tokenized, sent, after, run, q, waiting, hit⟩
  · refine Or.inl ⟨front.length, a, ?_, Reordering.kind_of_refused refused, ?_⟩
    · rw [read_eq, List.getElem?_append_right (Nat.le_refl _), Nat.sub_self,
        List.getElem?_cons_zero]
    · rw [read_eq, List.take_left]
      exact bracketDepth_eq_zero_or_pendingCall run (Stack.unwind?_eq_none_of_refused refused)
  · refine Or.inr ⟨rfl, tokenized, ?_⟩
    have some_open : 0 < after.countP PlacedToken.isOpening :=
      List.countP_pos_iff.mpr ⟨q, waiting, hit⟩
    have := run.countP_isOpening
    rw [List.countP_nil] at this
    omega

/-- Where a closing bracket is reported, there is one, with more closing than opening brackets up to
it, or else a call is pending before it.  Where a divider is reported, there is one, with as many
closing as opening brackets before it, or else a call is pending.  Where an open bracket is
reported, there are more opening than closing ones in all. -/
theorem brackets_of_structure_error (table : SymbolTable) (expression : String) :
    (∀ i, parse table expression = .error (.reordering (.structural (.unmatchedClosing i))) →
      (∃ a ∈ (tokensRead table expression)[i]?, a.isClosing = true) ∧
        (((tokensRead table expression).take (i + 1)).countP Token.isOpening <
            ((tokensRead table expression).take (i + 1)).countP Token.isClosing ∨
          PendingCall ((tokensRead table expression).take i))) ∧
    (∀ i, parse table expression = .error (.reordering (.structural (.strayDivider i))) →
      (∃ a ∈ (tokensRead table expression)[i]?, a.isDivider = true) ∧
        (((tokensRead table expression).take i).countP Token.isClosing =
            ((tokensRead table expression).take i).countP Token.isOpening ∨
          PendingCall ((tokensRead table expression).take i))) ∧
    (parse table expression = .error (.reordering (.structural .unclosedOpening)) →
      tokenize table expression = .ok (tokensRead table expression) ∧
        (tokensRead table expression).countP Token.isClosing <
          (tokensRead table expression).countP Token.isOpening) := by
  refine ⟨fun i failed => ?_, fun i failed => ?_, fun failed => ?_⟩
  · rcases depth_of_parse failed with ⟨k, a, at_index, ⟨-, eq⟩ | ⟨closes, eq⟩, depth⟩ | ⟨eq, -⟩ <;>
      cases eq
    refine ⟨⟨a, at_index, closes⟩, depth.imp_left fun zero => ?_⟩
    rcases a with _ | (_ | _ | _ | literal | _) <;> try cases closes
    have below_zero : bracketDepth ((tokensRead table expression).take (i + 1)) = -1 := by
      rw [List.take_add_one, at_index, Option.toList_some, bracketDepth_append, zero,
        bracketDepth_closing, Int.zero_add]
    unfold bracketDepth at below_zero
    omega
  · rcases depth_of_parse failed with ⟨k, a, at_index, ⟨divides, eq⟩ | ⟨-, eq⟩, depth⟩ | ⟨eq, -⟩ <;>
      cases eq
    refine ⟨⟨a, at_index, divides⟩, depth.imp_left fun zero => ?_⟩
    unfold bracketDepth at zero
    omega
  · rcases depth_of_parse failed with ⟨k, a, -, ⟨-, eq⟩ | ⟨-, eq⟩, -⟩ | ⟨-, tokenized, depth⟩
    · cases eq
    · cases eq
    · unfold bracketDepth at depth
      exact ⟨tokenized, by omega⟩

/-- The second closing bracket of `(1)),2 3` is one too many.  The divider in `(1-sin sin(2),3)` is
within brackets, but the first `sin` there has no arguments yet. -/
theorem brackets_of_structure_error_sines :
    (parse .standard "(1)),2 3" = .error (.reordering (.structural (.unmatchedClosing 3))) ∧
      ((tokensRead .standard "(1)),2 3").take 4).countP Token.isOpening <
        ((tokensRead .standard "(1)),2 3").take 4).countP Token.isClosing) ∧
    (parse .standard "(1-sin sin(2),3)" = .error (.reordering (.structural (.strayDivider 8))) ∧
      PendingCall ((tokensRead .standard "(1-sin sin(2),3)").take 8)) ∧
    (parse .standard "((1)" = .error (.reordering (.structural .unclosedOpening)) ∧
      (tokensRead .standard "((1)").countP Token.isClosing <
        (tokensRead .standard "((1)").countP Token.isOpening) := by
  have unmatched : parse .standard "(1)),2 3" =
      .error (.reordering (.structural (.unmatchedClosing 3))) := by
    decide +kernel
  have stray : parse .standard "(1-sin sin(2),3)" =
      .error (.reordering (.structural (.strayDivider 8))) := by
    decide +kernel
  have unclosed : parse .standard "((1)" = .error (.reordering (.structural .unclosedOpening)) := by
    decide +kernel
  refine ⟨⟨unmatched, ?_⟩, ⟨stray, ?_⟩, unclosed, ?_⟩
  · have group :
        (tokensRead .standard "(1)),2 3").take 3 = (Formula.ofNat 1).inBrackets.listing := by
      decide +kernel
    have told := ((brackets_of_structure_error .standard "(1)),2 3").1 3 unmatched).2
    rw [group] at told
    exact told.resolve_right (CallsOpen.not_pendingCall trivial)
  · have open_before : ((tokensRead .standard "(1-sin sin(2),3)").take 8).countP Token.isClosing ≠
        ((tokensRead .standard "(1-sin sin(2),3)").take 8).countP Token.isOpening := by
      decide +kernel
    have told := ((brackets_of_structure_error .standard "(1-sin sin(2),3)").2.1 8 stray).2
    exact told.resolve_left open_before
  · exact ((brackets_of_structure_error .standard "((1)").2.2 unclosed).2

/-- A closing bracket that is reported may have an opening one, and a divider that is reported may
be within brackets. -/
theorem uncalled_in_brackets :
    (¬ ∀ (table : SymbolTable) (expression : String) (i : Nat),
      parse table expression = .error (.reordering (.structural (.unmatchedClosing i))) →
        ((tokensRead table expression).take (i + 1)).countP Token.isOpening <
          ((tokensRead table expression).take (i + 1)).countP Token.isClosing) ∧
    ¬ ∀ (table : SymbolTable) (expression : String) (i : Nat),
      parse table expression = .error (.reordering (.structural (.strayDivider i))) →
        ((tokensRead table expression).take i).countP Token.isClosing =
          ((tokensRead table expression).take i).countP Token.isOpening := by
  constructor
  · intro counted
    have unmatched : parse .standard "(sin)" =
        .error (.reordering (.structural (.unmatchedClosing 2))) := by
      decide +kernel
    have paired : ¬ ((tokensRead .standard "(sin)").take 3).countP Token.isOpening <
        ((tokensRead .standard "(sin)").take 3).countP Token.isClosing := by
      decide +kernel
    exact paired (counted .standard "(sin)" 2 unmatched)
  · intro counted
    have stray : parse .standard "(sin,1)" =
        .error (.reordering (.structural (.strayDivider 2))) := by
      decide +kernel
    have bracketed : ((tokensRead .standard "(sin,1)").take 2).countP Token.isClosing ≠
        ((tokensRead .standard "(sin,1)").take 2).countP Token.isOpening := by
      decide +kernel
    exact bracketed (counted .standard "(sin,1)" 2 stray)

end ReversePolish

import Mathlib.Data.List.Perm.Basic
import ReversePolish.Proofs.Depth
import ReversePolish.Proofs.Reading

/-! # What comes out is what was read

The output has every token that was read but brackets and dividers, once and from the place where it
was read, and an operand comes out after all that came out before it was read (`Rearranges`).  It
does so for every expression that is brought into postfix order, well-formed or not
(`rearranges_ofExpression`).

Only openings, operators and functions that take arguments wait on the stack (`waits`), so an
operand that is sent is the token that has just arrived, and that has the last place so far. -/

namespace ReversePolish

/-- Whether a token is evaluated without any values: a number or a constant. -/
def Token.isOperand : Token → Bool
  | .number _ _ => true
  | .symbol (.function f) => f.isConstant
  | _ => false

/-- Whether a token is one of those that wait on the stack. -/
def PlacedToken.waits (p : PlacedToken) : Bool :=
  match p.token with
  | .symbol (.function f) => !f.isConstant
  | .symbol (.operator _) | .symbol (.opening _) => true
  | _ => false

/-- The output has the tokens of an expression that are evaluated, in another order. -/
structure Rearranges (tokens : List Token) (output : List PlacedToken) : Prop where
  /-- Brackets and dividers are left out, and nothing else is lost, doubled or added. -/
  permutes : output.Perm ((place 0 tokens).filter fun p => !p.token.isPunctuation)
  /-- Operands keep their order. -/
  operands : output.filter (fun p => p.token.isOperand) =
    (place 0 tokens).filter fun p => p.token.isOperand
  /-- What comes out before an operand was read before it. -/
  inOrder : output.Pairwise fun p q => q.token.isOperand = true → p.index < q.index

theorem Rearranges.nodup {tokens : List Token} {output : List PlacedToken}
    (h : Rearranges tokens output) : output.Nodup :=
  h.permutes.nodup_iff.mpr ((nodup_place 0 tokens).filter _)

theorem Rearranges.mem {tokens : List Token} {output : List PlacedToken} {q : PlacedToken}
    (h : Rearranges tokens output) (mem : q ∈ place 0 tokens)
    (evaluated : q.token.isPunctuation = false) : q ∈ output :=
  h.permutes.mem_iff.mpr (List.mem_filter.mpr ⟨mem, by simp [evaluated]⟩)

theorem isOperand_eq_false_of_waits {p : PlacedToken} (h : p.waits = true) :
    p.token.isOperand = false := by
  obtain ⟨token, index⟩ := p
  rcases token with _ | (f | _ | _ | _ | _)
  case number => cases h
  case symbol.function => simpa [PlacedToken.waits, Token.isOperand] using h
  all_goals rfl

theorem isPunctuation_eq_false_of_waits {p : PlacedToken} (h : p.waits = true)
    (closed : p.isOpening = false) : p.token.isPunctuation = false := by
  obtain ⟨token, index⟩ := p
  rcases token with _ | (_ | _ | _ | _ | _)
  case symbol.opening => cases closed
  case symbol.closing => cases h
  case symbol.divider => cases h
  all_goals rfl

theorem waits_of_isOperator {p : PlacedToken} (h : p.isOperator = true) : p.waits = true := by
  obtain ⟨token, index⟩ := p
  rcases token with _ | (_ | _ | _ | _ | _)
  case symbol.operator => rfl
  all_goals cases h

theorem isPunctuation_of_isOpening {p : PlacedToken} (h : p.isOpening = true) :
    p.token.isPunctuation = true := by
  have opening : p.token.isOpening = true := h
  rw [Token.isPunctuation, opening, Bool.true_or, Bool.true_or]

theorem isPunctuation_eq_false_of_isOperator {p : PlacedToken} (h : p.isOperator = true) :
    p.token.isPunctuation = false :=
  isPunctuation_eq_false_of_waits (waits_of_isOperator h) (Stack.isOpening_eq_false_of_isOperator h)

theorem isPunctuation_eq_false_of_isFunction {p : PlacedToken} (h : p.isFunction = true) :
    p.token.isPunctuation = false := by
  obtain ⟨token, index⟩ := p
  rcases token with _ | (_ | _ | _ | _ | _)
  case symbol.function => rfl
  all_goals cases h

theorem inOrder_of_no_operand {ps : List PlacedToken}
    (h : ∀ p ∈ ps, p.token.isOperand = false) :
    ps.Pairwise fun p q => q.token.isOperand = true → p.index < q.index := by
  refine List.pairwise_iff_forall_sublist.mpr fun {p q} pair operand => ?_
  have mem : q ∈ ps := pair.subset (by simp)
  rw [h q mem] at operand
  cases operand

namespace Stack

variable {stack after : Stack} {p : PlacedToken} {ps sent : List PlacedToken}

/-! ### What one token does -/

theorem Step.waits (h : Step stack p sent after) (waiting : ∀ q ∈ stack, q.waits = true) :
    ∀ q ∈ after, q.waits = true := by
  intro q mem
  cases h with
  | number => exact waiting q mem
  | constant => exact waiting q mem
  | function called =>
      rcases List.mem_cons.mp mem with rfl | mem
      · simpa [PlacedToken.waits] using called
      · exact waiting q mem
  | opening =>
      rcases List.mem_cons.mp mem with rfl | mem
      · rfl
      · exact waiting q mem
  | operator =>
      rcases List.mem_cons.mp mem with rfl | mem
      · rfl
      · exact waiting q (List.mem_append_right _ mem)
  | divider => exact waiting q (List.mem_append_right _ mem)
  | closing => exact waiting q (List.mem_append_right _ (List.mem_cons_of_mem _ mem))
  | closingCall =>
      exact
        waiting q (List.mem_append_right _ (List.mem_cons_of_mem _ (List.mem_cons_of_mem _ mem)))

theorem Step.not_punctuation (h : Step stack p sent after) :
    ∀ q ∈ sent, q.token.isPunctuation = false := by
  intro q mem
  cases h with
  | number =>
      obtain rfl := List.mem_singleton.mp mem
      rfl
  | constant =>
      obtain rfl := List.mem_singleton.mp mem
      rfl
  | function => cases mem
  | opening => cases mem
  | operator all => exact isPunctuation_eq_false_of_isOperator (isOperator_of_poppedBy (all q mem))
  | divider all => exact isPunctuation_eq_false_of_isOperator (all q mem)
  | closing all => exact isPunctuation_eq_false_of_isOperator (all q mem)
  | closingCall all _ function =>
      rcases List.mem_append.mp mem with mem | mem
      · exact isPunctuation_eq_false_of_isOperator (all q mem)
      · obtain rfl := List.mem_singleton.mp mem
        exact isPunctuation_eq_false_of_isFunction function

/-- A token comes to what was waiting, and only brackets and dividers are dropped. -/
theorem Step.perm (h : Step stack p sent after) :
    ((sent ++ after).filter fun q => !q.token.isPunctuation).Perm
      ((stack ++ [p]).filter fun q => !q.token.isPunctuation) := by
  have dropped {q : PlacedToken} (out : q.token.isPunctuation = true) (qs : List PlacedToken) :
      ((q :: qs).filter fun q => !q.token.isPunctuation) =
        qs.filter fun q => !q.token.isPunctuation := by
    simp [out]
  cases h with
  | number => exact List.perm_append_comm.filter _
  | constant => exact List.perm_append_comm.filter _
  | function => exact (List.perm_append_singleton _ _).symm.filter _
  | opening => exact (List.perm_append_singleton _ _).symm.filter _
  | operator =>
      rw [List.append_assoc]
      exact ((List.perm_append_singleton _ _).symm.append_left _).filter _
  | divider =>
      rw [List.filter_append (_ ++ _), dropped rfl, List.filter_nil, List.append_nil]
  | closing _ hit =>
      rw [List.filter_append (_ ++ _), dropped rfl, List.filter_nil, List.append_nil,
        List.filter_append, List.filter_append, dropped (isPunctuation_of_isOpening hit)]
  | @closingCall operators opened called _ _ _ _ hit =>
      rw [List.filter_append (operators ++ opened :: called :: after), dropped rfl, List.filter_nil,
        List.append_nil, List.filter_append operators, dropped (isPunctuation_of_isOpening hit),
        ← List.filter_append, List.append_assoc, List.singleton_append]

theorem Step.operand (h : Step stack p sent after) (waiting : ∀ q ∈ stack, q.waits = true) :
    (p.token.isOperand = true ∧ sent = [p]) ∨
      (p.token.isOperand = false ∧ ∀ q ∈ sent, q.token.isOperand = false) := by
  have old (sub : ∀ q ∈ sent, q ∈ stack) : ∀ q ∈ sent, q.token.isOperand = false :=
    fun q mem => isOperand_eq_false_of_waits (waiting q (sub q mem))
  cases h with
  | number => exact Or.inl ⟨rfl, rfl⟩
  | constant nullary => exact Or.inl ⟨nullary, rfl⟩
  | function called => exact Or.inr ⟨called, old (by simp)⟩
  | opening => exact Or.inr ⟨rfl, old (by simp)⟩
  | operator => exact Or.inr ⟨rfl, old fun q mem => List.mem_append_left _ mem⟩
  | divider => exact Or.inr ⟨rfl, old fun q mem => List.mem_append_left _ mem⟩
  | closing => exact Or.inr ⟨rfl, old fun q mem => List.mem_append_left _ mem⟩
  | closingCall =>
      refine Or.inr ⟨rfl, old fun q mem => ?_⟩
      rcases List.mem_append.mp mem with mem | mem
      · exact List.mem_append_left _ mem
      · simp [List.mem_singleton.mp mem]

theorem Step.filter_isOperand (h : Step stack p sent after)
    (waiting : ∀ q ∈ stack, q.waits = true) :
    sent.filter (fun q => q.token.isOperand) = [p].filter fun q => q.token.isOperand := by
  rcases h.operand waiting with ⟨-, rfl⟩ | ⟨other, none_sent⟩
  · rfl
  · rw [List.filter_eq_nil_iff.mpr fun q mem => by simp [none_sent q mem],
      List.filter_eq_nil_iff.mpr fun q mem => by simp [List.mem_singleton.mp mem, other]]

theorem Step.inOrder (h : Step stack p sent after) (waiting : ∀ q ∈ stack, q.waits = true) :
    sent.Pairwise fun a b => b.token.isOperand = true → a.index < b.index := by
  rcases h.operand waiting with ⟨-, rfl⟩ | ⟨-, none_sent⟩
  · exact List.pairwise_singleton _ p
  · exact inOrder_of_no_operand none_sent

/-! ### What many tokens do -/

theorem Run.waits (h : stack.Run ps sent after) (waiting : ∀ q ∈ stack, q.waits = true) :
    ∀ q ∈ after, q.waits = true := by
  induction h with
  | nil => exact waiting
  | cons step _ ih => exact ih (step.waits waiting)

theorem Run.not_punctuation (h : stack.Run ps sent after) :
    ∀ q ∈ sent, q.token.isPunctuation = false := by
  induction h with
  | nil => simp
  | cons step _ ih =>
      intro q mem
      rcases List.mem_append.mp mem with mem | mem
      · exact step.not_punctuation q mem
      · exact ih q mem

theorem Run.perm (h : stack.Run ps sent after) :
    ((sent ++ after).filter fun q => !q.token.isPunctuation).Perm
      ((stack ++ ps).filter fun q => !q.token.isPunctuation) := by
  induction h with
  | nil => simp
  | @cons stack between after p ps first later step _ ih =>
      have here := step.perm
      simp only [List.filter_append] at here ih ⊢
      rw [List.append_assoc]
      refine (ih.append_left _).trans ?_
      rw [← List.append_assoc]
      refine (here.append_right _).trans ?_
      rw [List.append_assoc, ← List.filter_append, List.singleton_append]

theorem Run.filter_isOperand (h : stack.Run ps sent after)
    (waiting : ∀ q ∈ stack, q.waits = true) :
    sent.filter (fun q => q.token.isOperand) = ps.filter fun q => q.token.isOperand := by
  induction h with
  | nil => rfl
  | @cons _ _ _ p ps _ _ step _ ih =>
      rw [List.filter_append, step.filter_isOperand waiting, ih (step.waits waiting),
        ← List.filter_append, List.singleton_append]

/-- What has been sent before an operand is sent has arrived before it. -/
theorem Run.inOrder {start : Nat} {tokens : List Token}
    (h : stack.Run (place start tokens) sent after) (waiting : ∀ q ∈ stack, q.waits = true)
    (early : ∀ q ∈ stack, q.index < start) :
    sent.Pairwise fun a b => b.token.isOperand = true → a.index < b.index := by
  induction tokens generalizing stack start sent with
  | nil =>
      cases h
      exact List.Pairwise.nil
  | cons token tokens ih =>
      cases h with
      | @cons _ between _ _ _ first later step rest =>
          have arrived : ∀ q ∈ first ++ between, q.index < start + 1 := by
            intro q mem
            rcases step.mem q mem with mem | rfl
            · exact Nat.lt_succ_of_lt (early q mem)
            · exact Nat.lt_succ_self start
          have waiting' := step.waits waiting
          have later_ordered :=
            ih rest waiting' fun q mem => arrived q (List.mem_append_right _ mem)
          refine List.pairwise_append.mpr ⟨step.inOrder waiting, later_ordered, ?_⟩
          -- An operand that is sent later has not been waiting, so it arrives later.
          intro a mem b mem' operand
          have a_arrived := arrived a (List.mem_append_left _ mem)
          rcases rest.mem b (List.mem_append_left _ mem') with waited | read
          · rw [isOperand_eq_false_of_waits (waiting' b waited)] at operand
            cases operand
          · exact Nat.lt_of_lt_of_le a_arrived (start_le_of_mem_place read)

theorem Run.rearranges {tokens : List Token} (h : Run [] (place 0 tokens) sent after)
    (closed : ∀ p ∈ after, p.isOpening = false) : Rearranges tokens (sent ++ after) := by
  have waiting : ∀ q ∈ after, q.waits = true := h.waits (by simp)
  have no_operand : ∀ q ∈ after, q.token.isOperand = false :=
    fun q mem => isOperand_eq_false_of_waits (waiting q mem)
  have evaluated : ∀ q ∈ sent ++ after, q.token.isPunctuation = false := by
    intro q mem
    rcases List.mem_append.mp mem with mem | mem
    · exact h.not_punctuation q mem
    · exact isPunctuation_eq_false_of_waits (waiting q mem) (closed q mem)
  refine ⟨?_, ?_, ?_⟩
  · have perm := h.perm
    rwa [List.filter_eq_self.mpr fun q mem => by simp [evaluated q mem], List.nil_append] at perm
  · have none_waiting : after.filter (fun q => q.token.isOperand) = [] :=
      List.filter_eq_nil_iff.mpr fun q mem => by simp [no_operand q mem]
    rw [List.filter_append, h.filter_isOperand (by simp), none_waiting, List.append_nil]
  · have drained := inOrder_of_no_operand no_operand
    refine List.pairwise_append.mpr ⟨h.inOrder (by simp) (by simp), drained, ?_⟩
    intro a _ b mem operand
    rw [no_operand b mem] at operand
    cases operand

end Stack

/-- An expression that is brought into postfix order comes out with the tokens that were read,
whether it is well-formed or not. -/
theorem rearranges_ofExpression {table : SymbolTable} {expression : String} :
    (∀ {r}, Reordering.ofExpression table expression = .ok r →
      ∃ tokens, tokenize table expression = .ok tokens ∧ Rearranges tokens r.output.toList) ∧
    ∀ {output}, parse table expression = .ok output →
      ∃ tokens placed, tokenize table expression = .ok tokens ∧ Rearranges tokens placed ∧
        output = placed.map PlacedToken.token := by
  constructor
  · intro r reordered
    obtain ⟨tokens, sent, after, tokenized, run, closed, rfl⟩ :=
      Reordering.ofExpression_eq_ok_iff.mp reordered
    exact ⟨tokens, tokenized, run.rearranges closed⟩
  · intro output parsed
    obtain ⟨tokens, sent, after, tokenized, run, closed, -, rfl⟩ := parse_eq_ok_iff.mp parsed
    exact ⟨tokens, sent ++ after, tokenized, run.rearranges closed, rfl⟩

/-- Nothing is lost of tokens that no formula lists, nor of an expression that is accepted. -/
theorem rearranges_malformed :
    (∃ r, Reordering.ofExpression .standard "cos-2^!(3,4*)!" = .ok r ∧
      r.postorder.map Token.literal = ["2", "3", "4", "*", "!", "!", "^", "-", "cos"] ∧
        ∃ tokens, tokenize .standard "cos-2^!(3,4*)!" = .ok tokens ∧
          Rearranges tokens r.output.toList) ∧
    ∃ output, parse .standard "2-sin(3)!" = .ok output ∧
      ∃ tokens placed, tokenize .standard "2-sin(3)!" = .ok tokens ∧ Rearranges tokens placed ∧
        output = placed.map PlacedToken.token := by
  constructor
  · have literals : (Reordering.ofExpression .standard "cos-2^!(3,4*)!").map
        (fun r => r.postorder.map Token.literal) =
          .ok ["2", "3", "4", "*", "!", "!", "^", "-", "cos"] := by
      decide +kernel
    cases reordered : Reordering.ofExpression .standard "cos-2^!(3,4*)!" with
    | error e =>
        rw [reordered] at literals
        cases literals
    | ok r =>
        rw [reordered] at literals
        exact ⟨r, rfl, Except.ok.inj literals, rearranges_ofExpression.1 reordered⟩
  · have accepted : (parse .standard "2-sin(3)!").isOk = true := by
      decide +kernel
    cases parsed : parse .standard "2-sin(3)!" with
    | error e =>
        rw [parsed] at accepted
        cases accepted
    | ok output => exact ⟨output, rfl, rearranges_ofExpression.2 parsed⟩

end ReversePolish

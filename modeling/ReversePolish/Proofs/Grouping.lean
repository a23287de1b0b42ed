import ReversePolish.Proofs.Formula
import ReversePolish.Proofs.Reading

/-! # Grouping by precedence

The tokens of a formula that respects precedence come out in its postorder
(`postorder_ofExpression`).

The operators of a formula that still wait when its last token has been received are those of its
right spine, and whatever pops the operator on top of the formula pops them all
(`pops_of_not_pops`).  In the other direction, the operators of its left spine pop nothing that the
one on top does not pop (`pops_trans`), so a formula leaves alone what waited before it.  `Delivers`
puts this together for one formula in front of any stack that `Bears` it, and the induction over
formulas goes through by one lemma for each kind of node. -/

namespace ReversePolish

namespace OperatorSymbol

theorem pops_trans {a b c : OperatorSymbol} (h : a.pops b = true) (h' : b.pops c = true) :
    a.pops c = true := by
  rw [pops_iff] at *
  rcases h with h | ⟨h, left⟩ <;> rcases h' with h' | ⟨h', -⟩
  · exact Or.inl (by omega)
  · exact Or.inl (by omega)
  · exact Or.inl (by omega)
  · exact Or.inr ⟨by omega, left⟩

theorem pops_of_not_pops {a b c : OperatorSymbol} (h : a.pops b = true) (h' : c.pops b = false) :
    a.pops c = true := by
  rw [← Bool.not_eq_true, pops_iff, not_or, not_and] at h'
  rw [pops_iff] at *
  obtain ⟨lower, right⟩ := h'
  rcases h with h | ⟨h, left⟩
  · exact Or.inl (by omega)
  · by_cases same : c.precedence.value = a.precedence.value
    · exact Or.inr ⟨same, left⟩
    · exact Or.inl (by omega)

end OperatorSymbol

namespace Stack

/-- A stack on which a formula with a given operator on top can be received: a function on it would
be taken for the one whose arguments a bracket closes, and an operator on it must not be popped. -/
def Bears (stack : Stack) (top? : Option OperatorSymbol) : Prop :=
  ∀ p ∈ stack.head?, p.isFunction = false ∧ ∀ o ∈ top?, p.poppedBy o = false

theorem Bears.of_pops {stack : Stack} {o : OperatorSymbol} {top? : Option OperatorSymbol}
    (h : stack.Bears (some o)) (pops : ∀ s ∈ top?, o.pops s = true) : stack.Bears top? := by
  intro p mem
  obtain ⟨not_function, kept⟩ := h p mem
  refine ⟨not_function, fun s top => ?_⟩
  have kept := kept o rfl
  unfold PlacedToken.poppedBy at kept ⊢
  split
  · next b eq =>
    rw [eq] at kept
    by_contra popped
    have := OperatorSymbol.pops_trans (pops s top) (by simpa using popped)
    simp_all
  · rfl

theorem bears_operator {stack : Stack} {o : OperatorSymbol} {index : Nat}
    {top? : Option OperatorSymbol} (h : ∀ s ∈ top?, s.pops o = false) :
    Bears (⟨.symbol (.operator o), index⟩ :: stack) top? := by
  intro p mem
  obtain rfl : _ = p := Option.some.inj mem
  exact ⟨rfl, h⟩

theorem bears_opening {stack : Stack} {literal : String} {index : Nat}
    (top? : Option OperatorSymbol) :
    Bears (⟨.symbol (.opening literal), index⟩ :: stack) top? := by
  intro p mem
  obtain rfl : _ = p := Option.some.inj mem
  exact ⟨rfl, fun _ _ => rfl⟩

/-- From a stack, tokens are received such that given tokens come out, the last ones of which may
still wait as operators. -/
structure Yields (stack : Stack) (ps sent pending : List PlacedToken) (output : List Token) :
    Prop where
  run : stack.Run ps sent (pending ++ stack)
  output_eq : (sent ++ pending).map PlacedToken.token = output
  operators : ∀ p ∈ pending, p.isOperator = true

/-- From a stack, tokens are received such that given tokens come out.  What still waits is popped
by whatever pops a given operator. -/
def Delivers (stack : Stack) (ps : List PlacedToken) (top? : Option OperatorSymbol)
    (output : List Token) : Prop :=
  ∃ sent pending, stack.Yields ps sent pending output ∧
    ∀ o : OperatorSymbol, (∀ s ∈ top?, o.pops s = true) → ∀ p ∈ pending, p.poppedBy o = true

variable {stack : Stack} {ps qs sent pending : List PlacedToken} {o : OperatorSymbol}
  {top? : Option OperatorSymbol} {output : List Token} {index : Nat}

/-! ### One lemma for each kind of node -/

theorem delivers_of_sent {p : PlacedToken} (h : stack.Step p [p] stack) :
    stack.Delivers [p] none [p.token] :=
  ⟨[p], [], ⟨Run.single h, rfl, by simp⟩, by simp⟩

/-- An operator sends what still waits of an operand before it, and nothing else. -/
theorem Run.operator (run : stack.Run ps sent (pending ++ stack)) (bears : stack.Bears (some o))
    (pops : ∀ p ∈ pending, p.poppedBy o = true) :
    stack.Run (ps ++ [⟨.symbol (.operator o), index⟩]) (sent ++ pending)
      (⟨.symbol (.operator o), index⟩ :: stack) := by
  have kept : ∀ p ∈ stack.head?, p.poppedBy o = false := fun p mem => (bears p mem).2 o rfl
  exact run.append (Run.single (Step.operator pops kept))

theorem Delivers.operand (run : stack.Run ps sent (⟨.symbol (.operator o), index⟩ :: stack))
    (right : Delivers (⟨.symbol (.operator o), index⟩ :: stack) qs top? output)
    (kept : ∀ s ∈ top?, s.pops o = false) :
    stack.Delivers (ps ++ qs) (some o)
      (sent.map PlacedToken.token ++ output ++ [.symbol (.operator o)]) := by
  obtain ⟨later, pending, yields, popped⟩ := right
  refine ⟨sent ++ later, pending ++ [⟨.symbol (.operator o), index⟩], ⟨?_, ?_, ?_⟩, ?_⟩
  · have := run.append yields.run
    rwa [List.append_cons] at this
  · rw [← yields.output_eq]
    simp
  · intro p mem
    rcases List.mem_append.mp mem with mem | mem
    · exact yields.operators p mem
    · rw [List.mem_singleton.mp mem]
      rfl
  · intro x pops p mem
    rcases List.mem_append.mp mem with mem | mem
    -- What pops `o` pops what is left of the operand, which does not pop `o`.
    · exact popped x (fun s top => OperatorSymbol.pops_of_not_pops (pops o rfl) (kept s top)) p mem
    · rw [List.mem_singleton.mp mem]
      exact pops o rfl

theorem Delivers.binary {right? : Option OperatorSymbol} {output' : List Token}
    (bears : stack.Bears (some o)) (left : stack.Delivers ps top? output)
    (pops : ∀ s ∈ top?, o.pops s = true)
    (right : Delivers (⟨.symbol (.operator o), index⟩ :: stack) qs right? output')
    (kept : ∀ s ∈ right?, s.pops o = false) :
    stack.Delivers (ps ++ ⟨.symbol (.operator o), index⟩ :: qs) (some o)
      (output ++ output' ++ [.symbol (.operator o)]) := by
  obtain ⟨sent, pending, yields, popped⟩ := left
  have := Delivers.operand (yields.run.operator bears (popped o pops)) right kept
  rwa [yields.output_eq, ← List.append_cons] at this

theorem Delivers.trailing (bears : stack.Bears (some o)) (operand : stack.Delivers ps top? output)
    (pops : ∀ s ∈ top?, o.pops s = true) :
    stack.Delivers (ps ++ [⟨.symbol (.operator o), index⟩]) (some o)
      (output ++ [.symbol (.operator o)]) := by
  obtain ⟨sent, pending, yields, popped⟩ := operand
  refine ⟨sent ++ pending, [⟨.symbol (.operator o), index⟩], ⟨?_, ?_, ?_⟩, ?_⟩
  · exact yields.run.operator bears (popped o pops)
  · rw [List.map_append, yields.output_eq, List.map_singleton]
  · intro p mem
    rw [List.mem_singleton.mp mem]
    rfl
  · intro x pops p mem
    rw [List.mem_singleton.mp mem]
    exact pops o rfl

theorem Delivers.leading (bears : stack.Bears (some o))
    (operand : Delivers (⟨.symbol (.operator o), index⟩ :: stack) ps top? output)
    (kept : ∀ s ∈ top?, s.pops o = false) :
    stack.Delivers (⟨.symbol (.operator o), index⟩ :: ps) (some o)
      (output ++ [.symbol (.operator o)]) := by
  have run : stack.Run ([] ++ [⟨.symbol (.operator o), index⟩]) ([] ++ []) _ :=
    Run.operator (@Run.nil stack) bears (by simp)
  exact Delivers.operand run operand kept

theorem Delivers.bracketed {opening closing : String} {index' : Nat} (bears : stack.Bears none)
    (body : Delivers (⟨.symbol (.opening opening), index⟩ :: stack) ps top? output) :
    stack.Delivers (⟨.symbol (.opening opening), index⟩ ::
      (ps ++ [⟨.symbol (.closing closing), index'⟩])) none output := by
  obtain ⟨sent, pending, yields, -⟩ := body
  have no_call : ∀ p ∈ stack.head?, p.isFunction = false := fun p mem => (bears p mem).1
  have close : Step (pending ++ ⟨.symbol (.opening opening), index⟩ :: stack)
      ⟨.symbol (.closing closing), index'⟩ pending stack :=
    Step.closing yields.operators rfl no_call
  have run := Run.cons Step.opening (yields.run.append (Run.single close))
  refine ⟨sent ++ pending, [], ⟨run, ?_, by simp⟩, by simp⟩
  rw [List.append_nil, yields.output_eq]

theorem Yields.call {f : FunctionSymbol} {opening closing : String} {index' index'' : Nat}
    (positive : f.isConstant = false)
    (arguments : Yields (⟨.symbol (.opening opening), index'⟩ ::
      ⟨.symbol (.function f), index⟩ :: stack) ps sent pending output) :
    stack.Delivers (⟨.symbol (.function f), index⟩ :: ⟨.symbol (.opening opening), index'⟩ ::
      (ps ++ [⟨.symbol (.closing closing), index''⟩])) none
      (output ++ [.symbol (.function f)]) := by
  have close : Step (pending ++ ⟨.symbol (.opening opening), index'⟩ ::
      ⟨.symbol (.function f), index⟩ :: stack) ⟨.symbol (.closing closing), index''⟩
      (pending ++ [⟨.symbol (.function f), index⟩]) stack :=
    Step.closingCall arguments.operators rfl rfl
  have run := Run.cons (Step.function positive)
    (Run.cons Step.opening (arguments.run.append (Run.single close)))
  refine ⟨sent ++ (pending ++ [⟨.symbol (.function f), index⟩]), [], ⟨run, ?_, by simp⟩, by simp⟩
  rw [← arguments.output_eq]
  simp

theorem Yields.more {opening divider : String} {index' : Nat} {sent' pending' : List PlacedToken}
    {output' : List Token}
    (argument : Yields (⟨.symbol (.opening opening), index⟩ :: stack) ps sent pending output)
    (rest : Yields (⟨.symbol (.opening opening), index⟩ :: stack) qs sent' pending' output') :
    Yields (⟨.symbol (.opening opening), index⟩ :: stack)
      (ps ++ ⟨.symbol (.divider divider), index'⟩ :: qs) (sent ++ (pending ++ sent')) pending'
      (output ++ output') := by
  refine ⟨argument.run.append (Run.cons (Step.divider argument.operators rfl) rest.run), ?_,
    rest.operators⟩
  rw [← argument.output_eq, ← rest.output_eq]
  simp

end Stack

/-! ### Formulas -/

mutual

theorem Formula.delivers : ∀ (t : Formula) (stack : Stack) (start : Nat), t.RespectsPrecedence →
    stack.Bears t.top? → stack.Delivers (place start t.listing) t.top? t.postorder
  | .number literal value, stack, start, _, _ => Stack.delivers_of_sent Stack.Step.number
  | .constant f nullary, stack, start, _, _ =>
      Stack.delivers_of_sent (Stack.Step.constant nullary)
  | .bracketed opening body closing, stack, start, respects, bears => by
      have inner := body.delivers (⟨.symbol (.opening opening), start⟩ :: stack) (start + 1)
        respects (Stack.bears_opening _)
      rw [Formula.listing, place, place_append]
      exact inner.bracketed bears
  | .call f positive opening arguments closing, stack, start, respects, _ => by
      obtain ⟨sent, pending, yields⟩ := arguments.yields opening (start + 1)
        (⟨.symbol (.function f), start⟩ :: stack) (start + 1 + 1) respects
      rw [Formula.listing, place, place, place_append]
      exact yields.call positive
  | .binary left o _ right, stack, start, ⟨left_respects, right_respects, pops, kept⟩, bears => by
      have before := left.delivers stack start left_respects (bears.of_pops pops)
      have after := right.delivers
        (⟨.symbol (.operator o), start + left.listing.length⟩ :: stack)
        (start + left.listing.length + 1) right_respects (Stack.bears_operator kept)
      rw [Formula.listing, place_append]
      exact before.binary bears pops after kept
  | .trailing operand o _, stack, start, ⟨respects, pops⟩, bears => by
      have before := operand.delivers stack start respects (bears.of_pops pops)
      rw [Formula.listing, place_append]
      exact before.trailing bears pops
  | .leading o _ operand, stack, start, ⟨respects, kept⟩, bears => by
      have after := operand.delivers (⟨.symbol (.operator o), start⟩ :: stack) (start + 1)
        respects (Stack.bears_operator kept)
      exact after.leading bears kept

theorem Arguments.yields : ∀ (a : Arguments) (opening : String) (index : Nat) (stack : Stack)
    (start : Nat), a.RespectPrecedence → ∃ sent pending,
      Stack.Yields (⟨.symbol (.opening opening), index⟩ :: stack) (place start a.listing) sent
        pending a.postorder
  | .last argument, opening, index, stack, start, respects => by
      obtain ⟨sent, pending, yields, -⟩ := argument.delivers
        (⟨.symbol (.opening opening), index⟩ :: stack) start respects (Stack.bears_opening _)
      exact ⟨sent, pending, yields⟩
  | .more argument divider rest, opening, index, stack, start, ⟨respects, rest_respect⟩ => by
      obtain ⟨sent, pending, yields, -⟩ := argument.delivers
        (⟨.symbol (.opening opening), index⟩ :: stack) start respects (Stack.bears_opening _)
      obtain ⟨sent', pending', yields'⟩ := rest.yields opening index stack
        (start + argument.listing.length + 1) rest_respect
      rw [Arguments.listing, place_append]
      exact ⟨_, _, yields.more yields'⟩

end

/-- A formula that respects precedence is received from the empty stack, and its postorder comes
out. -/
theorem Formula.exists_run {t : Formula} (respects : t.RespectsPrecedence) :
    ∃ sent after, Stack.Run [] (place 0 t.listing) sent after ∧
      (∀ p ∈ after, p.isOpening = false) ∧
        (sent ++ after).map PlacedToken.token = t.postorder := by
  have bears : Stack.Bears [] t.top? := by
    intro p mem
    cases mem
  obtain ⟨sent, pending, yields, -⟩ := t.delivers [] 0 respects bears
  refine ⟨sent, pending, ?_, ?_, yields.output_eq⟩
  · have := yields.run
    rwa [List.append_nil] at this
  · intro p mem
    exact Stack.isOpening_eq_false_of_isOperator (yields.operators p mem)

/-- The tokens of an expression that lists a formula respecting precedence come out in the
postorder of the formula. -/
theorem postorder_ofExpression {table : SymbolTable} {expression : String} {t : Formula}
    (respects : t.RespectsPrecedence) (tokenized : tokenize table expression = .ok t.listing) :
    ∃ r, Reordering.ofExpression table expression = .ok r ∧ r.postorder = t.postorder := by
  obtain ⟨sent, after, run, closed, output_eq⟩ := t.exists_run respects
  refine ⟨_, Reordering.ofExpression_eq_ok_iff.mpr
    ⟨t.listing, sent, after, tokenized, run, closed, rfl⟩, ?_⟩
  rw [Reordering.postorder, ← output_eq]

/-- The formula of `!2^3^sin(4-5,6)!*(7-8)`, where `!` comes both before and after an operand. -/
def Formula.mixed : Formula :=
  ((ofNat 2).subfactorial.power
    ((ofNat 3).power
      (sine (.more ((ofNat 4).difference (ofNat 5)) "," (.last (ofNat 6)))).factorial)).product
        ((ofNat 7).difference (ofNat 8)).inBrackets

theorem postorder_ofExpression_mixed :
    Formula.mixed.RespectsPrecedence ∧
      tokenize .standard "!2^3^sin(4-5,6)!*(7-8)" = .ok Formula.mixed.listing ∧
        ∃ r, Reordering.ofExpression .standard "!2^3^sin(4-5,6)!*(7-8)" = .ok r ∧
          r.postorder = Formula.mixed.postorder := by
  have respects : Formula.mixed.RespectsPrecedence := by
    simp [Formula.mixed, Formula.difference, Formula.product, Formula.power, Formula.factorial,
      Formula.subfactorial, Formula.sine, Formula.inBrackets, Formula.ofNat,
      Formula.RespectsPrecedence, Arguments.RespectPrecedence, Formula.top?]
    decide
  have tokenized : tokenize .standard "!2^3^sin(4-5,6)!*(7-8)" = .ok Formula.mixed.listing := by
    decide +kernel
  exact ⟨respects, tokenized, postorder_ofExpression respects tokenized⟩

end ReversePolish

import ReversePolish.Proofs.Chains
import ReversePolish.Proofs.Groups
import ReversePolish.Proofs.Signs

/-! # Operators after their operand

An operator with one operand is received like any other: it waits until an operator comes that pops
it, its bracket closes, or the expression ends.  So it does not always come out before what is
written after it.  It does if and only if what comes right after it is no operator, or is one that
pops it (`ReleasedBy`).  A row of such operators comes out right after the operand before it if and
only if each of them is released in this way and none of them pops the operator before the operand
(`released_of_parse`).

What waits on the stack comes out in the order of the stack (`Run.sublist`), so an operator that is
put on top of another one comes out before it.  The stack with one operator on top, and the tokens
after it, are what `Run.first_of_released` and `Run.precedes_of_kept` are about.  A row is taken one
operator at a time (`Run.row_comes_first_iff`). -/

namespace ReversePolish

/-- Whether a token comes out before another one. -/
def Precedes (output : List PlacedToken) (p q : PlacedToken) : Prop := [p, q].Sublist output

instance (output : List PlacedToken) (p q : PlacedToken) : Decidable (Precedes output p q) :=
  inferInstanceAs (Decidable ([p, q].Sublist output))

theorem Precedes.not_swap {output : List PlacedToken} {p q : PlacedToken}
    (h : Precedes output p q) (distinct : output.Nodup) : ¬ Precedes output q p := by
  intro swapped
  unfold Precedes at h swapped
  induction output with
  | nil => cases h
  | cons r output ih =>
      obtain ⟨out, distinct⟩ := List.nodup_cons.mp distinct
      cases h with
      | cons _ h =>
          cases swapped with
          | cons _ swapped => exact ih h distinct swapped
          | cons_cons _ _ => exact out (h.subset (by simp))
      | cons_cons _ h =>
          cases swapped with
          | cons _ swapped => exact out (swapped.subset (by simp))
          | cons_cons _ _ => exact out (h.subset (by simp))

theorem Token.isBinaryOperator_eq_false {u : OperatorSymbol} (one : u.isUnary = true) :
    (Token.symbol (.operator u)).isBinaryOperator = false := by
  rw [isBinaryOperator, OperatorSymbol.isBinary_eq_not_isUnary, one, Bool.not_true]

/-- Operators as tokens. -/
def operatorTokens (us : List OperatorSymbol) : List Token := us.map fun u => .symbol (.operator u)

/-- Whether what comes right after an operator is no operator, or is one that pops it. -/
def OperatorSymbol.ReleasedBy (u : OperatorSymbol) (rest : List Token) : Prop :=
  ∀ t, rest.head? = some (.symbol (.operator t)) → t.pops u = true

theorem releasedBy_operator {t u : OperatorSymbol} {rest : List Token} :
    u.ReleasedBy (.symbol (.operator t) :: rest) ↔ t.pops u = true := by
  refine ⟨fun released => released t rfl, fun popped t head => ?_⟩
  cases head
  exact popped

/-- Whether each of a row of operators is released by what comes right after it. -/
def AllReleased : List OperatorSymbol → List Token → Prop
  | [], _ => True
  | u :: us, rest => u.ReleasedBy (operatorTokens us ++ rest) ∧ AllReleased us rest

/-- Whether nothing, a closing bracket or an operator comes next. -/
def OperandOver (rest : List Token) : Prop :=
  ∀ a ∈ rest.head?, a.isClosing = true ∨ ∃ t, a = .symbol (.operator t)

theorem OperandOver.row {rest : List Token} (ended : OperandOver rest) (us : List OperatorSymbol) :
    OperandOver (operatorTokens us ++ rest) := by
  rcases us with _ | ⟨v, us⟩
  · exact ended
  · intro a mem
    exact Or.inr ⟨v, (Option.some.inj mem).symm⟩

/-- A number, or a pair of brackets with something between them that is evaluated. -/
inductive IsOperand : List Token → Prop
  | number {literal value} : IsOperand [.number literal value]
  | group {opening body closing} : Balanced body → (∃ a ∈ body, a.isPunctuation = false) →
      IsOperand (.symbol (.opening opening) :: (body ++ [.symbol (.closing closing)]))

theorem IsOperand.exists_first {operand : List Token} (h : IsOperand operand) :
    ∃ first more, operand = first :: more ∧ (first.isNumber = true ∨ first.isOpening = true) := by
  cases h with
  | number => exact ⟨_, _, rfl, Or.inl rfl⟩
  | group => exact ⟨_, _, rfl, Or.inr rfl⟩

theorem IsOperand.exists_last {operand : List Token} (h : IsOperand operand) :
    ∃ front last, operand = front ++ [last] ∧ last.isBinaryOperator = false ∧
      last.isOpening = false := by
  cases h with
  | @number literal value => exact ⟨[], .number literal value, rfl, rfl, rfl⟩
  | @group opening body closing =>
      exact ⟨.symbol (.opening opening) :: body, .symbol (.closing closing), rfl, rfl, rfl⟩

theorem IsOperand.exists_evaluated {operand : List Token} (h : IsOperand operand) :
    ∃ a ∈ operand, a.isPunctuation = false := by
  cases h with
  | @number literal value => exact ⟨.number literal value, List.mem_cons_self, rfl⟩
  | group _ some_evaluated =>
      obtain ⟨a, mem, evaluated⟩ := some_evaluated
      exact ⟨a, List.mem_cons_of_mem _ (List.mem_append_left _ mem), evaluated⟩

/-- Whether a token is a number, an operator or a bracket. -/
def Token.isBasic : Token → Bool
  | .symbol (.function _) | .symbol (.divider _) => false
  | _ => true

/-- Numbers, operators and brackets, where a number or an opening bracket comes first or right after
a binary operator or an opening bracket. -/
structure OperandsPlaced (tokens : List Token) : Prop where
  basic : ∀ a ∈ tokens, a.isBasic = true
  due : tokens.IsChain fun b a => a.isNumber = true ∨ a.isOpening = true →
    b.isBinaryOperator = true ∨ b.isOpening = true

theorem operandsPlaced_iff {tokens : List Token} :
    OperandsPlaced tokens ↔ (∀ a ∈ tokens, a.isBasic = true) ∧ tokens.IsChain fun b a =>
      a.isNumber = true ∨ a.isOpening = true → b.isBinaryOperator = true ∨ b.isOpening = true :=
  ⟨fun h => ⟨h.basic, h.due⟩, fun h => ⟨h.1, h.2⟩⟩

instance (tokens : List Token) : Decidable (OperandsPlaced tokens) :=
  decidable_of_iff' _ operandsPlaced_iff

theorem OperandsPlaced.operand_due {before rest : List Token} {a b : Token}
    (h : OperandsPlaced (before ++ b :: a :: rest))
    (operand : a.isNumber = true ∨ a.isOpening = true) :
    b.isBinaryOperator = true ∨ b.isOpening = true :=
  List.isChain_iff_forall_rel_of_append_cons_cons.mp h.due rfl operand

theorem OperandsPlaced.operandOver {before rest : List Token} {a : Token}
    (h : OperandsPlaced (before ++ a :: rest)) (other : a.isBinaryOperator = false)
    (closed : a.isOpening = false) : OperandOver rest := by
  intro b mem
  obtain ⟨rest, rfl⟩ := List.head?_eq_some_iff.mp mem
  have not_due : ¬ (b.isNumber = true ∨ b.isOpening = true) := by
    intro operand
    have due := h.operand_due operand
    rw [other, closed] at due
    simp at due
  have basic := h.basic b (by simp)
  rcases b with _ | (_ | o | _ | _ | _)
  case number => exact absurd (Or.inl rfl) not_due
  case symbol.function => cases basic
  case symbol.operator => exact Or.inr ⟨o, rfl⟩
  case symbol.opening => exact absurd (Or.inr rfl) not_due
  case symbol.closing => exact Or.inl rfl
  case symbol.divider => cases basic

theorem OperandsPlaced.waits_of_operand {before operand rest : List Token}
    (h : OperandsPlaced (before ++ (operand ++ rest))) (is_operand : IsOperand operand) :
    ∀ a ∈ before.getLast?, a.isOpening = true ∨ ∃ o, a = .symbol (.operator o) := by
  intro a mem
  obtain ⟨front, rfl⟩ := List.getLast?_eq_some_iff.mp mem
  obtain ⟨first, more, rfl, begins⟩ := is_operand.exists_first
  rw [List.append_assoc, List.singleton_append, List.cons_append] at h
  rcases h.operand_due begins with binary | opening
  · obtain ⟨o, rfl, -⟩ := Token.exists_of_isBinaryOperator binary
    exact Or.inr ⟨o, rfl⟩
  · exact Or.inl opening

theorem OperandsPlaced.operandOver_of_row {before operand rest : List Token}
    {us : List OperatorSymbol}
    (h : OperandsPlaced (before ++ (operand ++ (operatorTokens us ++ rest))))
    (is_operand : IsOperand operand) (unary : ∀ u ∈ us, u.isUnary = true) : OperandOver rest := by
  rcases List.eq_nil_or_concat us with rfl | ⟨us, u, rfl⟩
  · obtain ⟨front, last, rfl, other, closed⟩ := is_operand.exists_last
    have eq : before ++ (front ++ [last] ++ (operatorTokens [] ++ rest)) =
        (before ++ front) ++ last :: rest := by simp [operatorTokens]
    exact (eq ▸ h).operandOver other closed
  · have one : u.isUnary = true := unary u (by simp)
    have eq : before ++ (operand ++ (operatorTokens (us.concat u) ++ rest)) =
        (before ++ operand ++ operatorTokens us) ++ .symbol (.operator u) :: rest := by
      simp [operatorTokens]
    exact (eq ▸ h).operandOver (Token.isBinaryOperator_eq_false one) rfl

theorem OperandsPlaced.mem_output_iff {tokens : List Token} {output : List PlacedToken}
    (h : OperandsPlaced tokens) (rearranges : Rearranges tokens output) {q : PlacedToken} :
    q ∈ output ↔ q ∈ place 0 tokens ∧ (q.token.isNumber = true ∨ q.isOperator = true) := by
  rw [rearranges.permutes.mem_iff, List.mem_filter]
  refine and_congr_right fun mem => ?_
  have basic := h.basic q.token (token_mem_of_mem_place mem)
  obtain ⟨token, index⟩ := q
  rcases token with _ | (_ | _ | _ | _ | _)
  case number => exact iff_of_true rfl (Or.inl rfl)
  case symbol.operator => exact iff_of_true rfl (Or.inr rfl)
  case symbol.function => cases basic
  case symbol.divider => cases basic
  all_goals exact iff_of_false (fun out => by cases out) (by rintro (out | out) <;> cases out)

/-- What an output has from the tokens of a range of places. -/
def sentFrom (start length : Nat) (output : List PlacedToken) : List PlacedToken :=
  output.filter fun p => decide (start ≤ p.index ∧ p.index < start + length)

theorem sentFrom_append (start length : Nat) (xs ys : List PlacedToken) :
    sentFrom start length (xs ++ ys) = sentFrom start length xs ++ sentFrom start length ys :=
  List.filter_append ..

theorem sentFrom_eq {start length : Nat} {front block back : List PlacedToken}
    (inside : ∀ p ∈ block, start ≤ p.index ∧ p.index < start + length)
    (outside : ∀ p ∈ front ++ back, ¬ (start ≤ p.index ∧ p.index < start + length)) :
    sentFrom start length (front ++ (block ++ back)) = block := by
  have no_front : sentFrom start length front = [] :=
    List.filter_eq_nil_iff.mpr fun p mem => by simpa using outside p (List.mem_append_left _ mem)
  have no_back : sentFrom start length back = [] :=
    List.filter_eq_nil_iff.mpr fun p mem => by simpa using outside p (List.mem_append_right _ mem)
  have whole : sentFrom start length block = block :=
    List.filter_eq_self.mpr fun p mem => by simpa using inside p mem
  rw [sentFrom_append, sentFrom_append, no_front, no_back, whole, List.nil_append, List.append_nil]

theorem append_infix_iff {output front block back more : List PlacedToken} (nonempty : block ≠ [])
    (eq : output = front ++ (block ++ back)) (distinct : output.Nodup) :
    block ++ more <:+: output ↔ ∃ last, back = more ++ last := by
  subst eq
  constructor
  · rintro ⟨front', last, eq⟩
    obtain ⟨p, block, rfl⟩ := List.exists_cons_of_ne_nil nonempty
    obtain ⟨-, later, apart⟩ := List.nodup_append.mp distinct
    have not_front : p ∉ front := fun mem => apart p mem p List.mem_cons_self rfl
    have not_later : p ∉ block ++ back := (List.nodup_cons.mp later).1
    rw [List.append_assoc, List.append_assoc, List.cons_append, List.cons_append] at eq
    obtain ⟨-, -, rest⟩ := (List.append_cons_inj_of_notMem not_front not_later).mp eq.symm
    exact ⟨last, List.append_cancel_left rest⟩
  · rintro ⟨last, rfl⟩
    exact ⟨front, last, by simp⟩

namespace Stack

variable {stack after : Stack} {p : PlacedToken} {ps sent : List PlacedToken}

/-! ### The order of the stack -/

/-- What waits is sent in the order of the stack, but for brackets, which are dropped. -/
theorem Step.sublist (h : Step stack p sent after) :
    (stack.filter fun q => !q.isOpening).Sublist (sent ++ after) := by
  cases h with
  | number => exact List.filter_sublist.trans (List.sublist_cons_self _ _)
  | constant => exact List.filter_sublist.trans (List.sublist_cons_self _ _)
  | function => exact List.filter_sublist.trans (List.sublist_cons_self _ _)
  | opening => exact List.filter_sublist.trans (List.sublist_cons_self _ _)
  | operator =>
      refine List.filter_sublist.trans ?_
      exact (List.Sublist.refl _).append (List.sublist_cons_self _ _)
  | divider => exact List.filter_sublist
  | @closing operators opened below _ _ _ hit =>
      rw [List.filter_append, List.filter_cons_of_neg (by simp [hit])]
      exact List.filter_sublist.append List.filter_sublist
  | @closingCall operators opened called below _ _ _ hit =>
      rw [List.filter_append, List.filter_cons_of_neg (by simp [hit]), List.append_assoc]
      exact List.filter_sublist.append List.filter_sublist

theorem Run.sublist (h : stack.Run ps sent after) :
    (stack.filter fun q => !q.isOpening).Sublist (sent ++ after) := by
  induction h with
  | nil => exact List.filter_sublist
  | @cons stack between after p ps first later step _ ih =>
      have here := step.sublist.filter fun q => !q.isOpening
      rw [List.filter_filter, List.filter_append] at here
      simp only [Bool.and_self] at here
      rw [List.append_assoc]
      exact here.trans (List.filter_sublist.append ih)

/-! ### One operator that waits -/

variable {t u : OperatorSymbol} {index start : Nat} {rest : List Token}

/-- An operator that arrives is put on the stack, or the token on top is sent and the operator
arrives at what is below. -/
theorem Run.operator_cases (run : stack.Run (⟨.symbol (.operator t), index⟩ :: ps) sent after) :
    ((∀ q ∈ stack.head?, q.poppedBy t = false) ∧
      Run (⟨.symbol (.operator t), index⟩ :: stack) ps sent after) ∨
    ∃ q below later, stack = q :: below ∧ q.poppedBy t = true ∧ sent = q :: later ∧
      Run below (⟨.symbol (.operator t), index⟩ :: ps) later after := by
  cases run with
  | @cons _ between _ _ _ popped later step run =>
      cases step with
      | operator all stop =>
          rcases popped with _ | ⟨q, popped⟩
          · exact Or.inl ⟨stop, run⟩
          · have all' : ∀ p ∈ popped, p.poppedBy t = true :=
              fun p mem => all p (List.mem_cons_of_mem q mem)
            exact Or.inr ⟨q, _, _, rfl, all q List.mem_cons_self, rfl,
              Run.cons (Step.operator all' stop) run⟩

theorem Step.closing_first {literal : String}
    (h : Step (p :: stack) ⟨.symbol (.closing literal), index⟩ sent after)
    (operator : p.isOperator = true) : ∃ more, sent = p :: more := by
  have closed := isOpening_eq_false_of_isOperator operator
  generalize eq : p :: stack = whole at h
  cases h with
  | closing _ hit =>
      rcases sent with _ | ⟨q, operators⟩
      · obtain rfl := (List.cons.inj eq).1
        rw [hit] at closed
        cases closed
      · obtain rfl := (List.cons.inj eq).1
        exact ⟨operators, rfl⟩
  | @closingCall operators _ called _ _ _ _ hit =>
      rcases operators with _ | ⟨q, operators⟩
      · obtain rfl := (List.cons.inj eq).1
        rw [hit] at closed
        cases closed
      · obtain rfl := (List.cons.inj eq).1
        exact ⟨operators ++ [called], rfl⟩

theorem Run.first_of_released
    (run : Run (⟨.symbol (.operator u), index⟩ :: stack) (place start rest) sent after)
    (ended : OperandOver rest) (released : u.ReleasedBy rest) :
    ∃ more, sent ++ after = ⟨.symbol (.operator u), index⟩ :: more := by
  rcases rest with _ | ⟨a, rest⟩
  · cases run
    exact ⟨stack, rfl⟩
  · rcases ended a rfl with closes | ⟨t, rfl⟩
    · rcases a with _ | (_ | _ | _ | literal | _) <;> try cases closes
      cases run with
      | cons step run =>
          obtain ⟨more, rfl⟩ := step.closing_first rfl
          exact ⟨_, rfl⟩
    · rcases run.operator_cases with ⟨kept, -⟩ | ⟨q, below, later, eq, -, rfl, -⟩
      · have kept : t.pops u = false := kept _ rfl
        rw [releasedBy_operator.mp released] at kept
        cases kept
      · obtain rfl := (List.cons.inj eq).1
        exact ⟨_, rfl⟩

theorem Run.precedes_of_kept
    (run : Run (⟨.symbol (.operator u), index⟩ :: stack) (⟨.symbol (.operator t), start⟩ :: ps)
      sent after) (kept : t.pops u = false) :
    Precedes (sent ++ after) ⟨.symbol (.operator t), start⟩ ⟨.symbol (.operator u), index⟩ := by
  rcases run.operator_cases with ⟨-, run⟩ | ⟨q, below, later, eq, popped, -, -⟩
  · refine List.Sublist.trans ?_ run.sublist
    rw [List.filter_cons_of_pos rfl, List.filter_cons_of_pos rfl]
    exact ((List.nil_sublist _).cons_cons _).cons_cons _
  · obtain rfl := (List.cons.inj eq).1
    have popped : t.pops u = true := popped
    rw [kept] at popped
    cases popped

/-- An operator that waits on top is the next token to come out if and only if it is released. -/
theorem Run.comes_first_iff
    (run : Run (⟨.symbol (.operator u), index⟩ :: stack) (place start rest) sent after)
    (distinct : (sent ++ after).Nodup) (ended : OperandOver rest) :
    (∃ more, sent ++ after = ⟨.symbol (.operator u), index⟩ :: more) ↔ u.ReleasedBy rest := by
  refine ⟨fun ⟨more, eq⟩ t head => ?_, run.first_of_released ended⟩
  by_contra kept
  obtain ⟨rest, rfl⟩ := List.head?_eq_some_iff.mp head
  have overtaken := run.precedes_of_kept (by simpa using kept)
  rw [eq] at overtaken distinct
  have out := (List.nodup_cons.mp distinct).1
  -- The operator that comes out first has nothing before it.
  cases overtaken with
  | cons _ overtaken => exact out (overtaken.subset (by simp))
  | cons_cons _ overtaken => exact out (overtaken.subset (by simp))

/-! ### A row of operators -/

/-- Operators that arrive in a row come out right away, and in this order, if and only if each of
them is released and none of them pops what was on top before. -/
theorem Run.row_comes_first_iff {us : List OperatorSymbol}
    (run : stack.Run (place start (operatorTokens us ++ rest)) sent after)
    (earlier : ∀ q ∈ stack, q.index < start) (distinct : (sent ++ after).Nodup)
    (ended : OperandOver rest) :
    (∃ more, sent ++ after = place start (operatorTokens us) ++ more) ↔
      AllReleased us rest ∧ ∀ u ∈ us, ∀ q ∈ stack.head?, q.poppedBy u = false := by
  induction us generalizing stack start sent with
  | nil => exact iff_of_true ⟨_, rfl⟩ ⟨trivial, fun u mem => by cases mem⟩
  | cons u us ih =>
      rcases run.operator_cases with ⟨kept, run⟩ | ⟨q, below, later, rfl, popped, rfl, -⟩
      · have first_iff := run.comes_first_iff distinct (ended.row us)
        rcases us with _ | ⟨v, us⟩
        · refine first_iff.trans ⟨fun released => ⟨⟨released, trivial⟩, ?_⟩, fun ⟨all, _⟩ => all.1⟩
          intro v mem
          obtain rfl := List.mem_singleton.mp mem
          exact kept
        · rcases run.operator_cases with ⟨kept', -⟩ | ⟨q, below, later, eq, popped, rfl, run⟩
          · -- The next operator does not pop this one, so this one does not come out first.
            have kept' : v.pops u = false := kept' _ rfl
            have held : ¬ u.ReleasedBy (operatorTokens (v :: us) ++ rest) := by
              intro released
              rw [releasedBy_operator.mp released] at kept'
              cases kept'
            exact iff_of_false (fun ⟨more, eq⟩ => held (first_iff.mp ⟨_, eq⟩))
              (fun ⟨all, _⟩ => held all.1)
          · obtain ⟨rfl, rfl⟩ := List.cons.inj eq
            have waiting : ∀ q ∈ stack, q.index < start + 1 :=
              fun q mem => Nat.lt_succ_of_lt (earlier q mem)
            have next := ih run waiting (List.nodup_cons.mp distinct).2
            constructor
            · rintro ⟨more, out⟩
              obtain ⟨all, untouched⟩ := next.mp ⟨more, (List.cons.inj out).2⟩
              exact ⟨⟨first_iff.mp ⟨_, out⟩, all⟩, List.forall_mem_cons.mpr ⟨kept, untouched⟩⟩
            · rintro ⟨⟨-, all⟩, untouched⟩
              obtain ⟨more, out⟩ := next.mpr ⟨all, (List.forall_mem_cons.mp untouched).2⟩
              exact ⟨more, congrArg (_ :: ·) out⟩
      · -- The token on top comes out before the operator that pops it.
        refine iff_of_false (fun ⟨more, eq⟩ => ?_) (fun ⟨_, untouched⟩ => ?_)
        · obtain rfl := (List.cons.inj eq).1
          exact Nat.lt_irrefl _ (earlier _ List.mem_cons_self)
        · have kept := untouched u List.mem_cons_self q rfl
          rw [popped] at kept
          cases kept

/-! ### After an operand -/

theorem Run.head?_of_last {before : List Token} (run : Run [] (place 0 before) sent after)
    (waits : ∀ a ∈ before.getLast?, a.isOpening = true ∨ ∃ o, a = .symbol (.operator o)) :
    after.head?.map PlacedToken.token = before.getLast? := by
  rcases List.eq_nil_or_concat before with rfl | ⟨before, a, rfl⟩
  · cases run
    rfl
  · rw [List.concat_eq_append] at run waits ⊢
    rw [List.getLast?_concat] at waits ⊢
    have waits : PlacedToken.waits ⟨a, before.length⟩ = true := by
      rcases waits a rfl with opening | ⟨o, rfl⟩
      · rcases a with _ | (_ | _ | _ | _ | _) <;> try cases opening
        rfl
      · rfl
    obtain ⟨below, rfl⟩ := run.top_of_waits waits
    rfl

/-- What comes out of an operand comes out before anything else, and leaves the stack as it was. -/
theorem Run.exists_operand {base : Stack} {operand later : List Token} (h : IsOperand operand)
    (run : base.Run (place start (operand ++ later)) sent after)
    (no_call : ∀ p ∈ base.head?, p.isFunction = false) :
    ∃ block rest, sent = block ++ rest ∧ (∀ p ∈ block, p ∈ place start operand) ∧
      base.Run (place (start + operand.length) later) rest after := by
  cases h with
  | @number literal value =>
      cases run with
      | cons step run =>
          cases step
          exact ⟨[⟨.number literal value, start⟩], _, rfl, fun p mem => mem, run⟩
  | @group opening body closing balanced =>
      rw [List.cons_append, List.append_assoc, List.singleton_append] at run
      cases run with
      | cons step run =>
          cases step
          obtain ⟨out, rest, rfl, -, source, run⟩ :=
            @exists_segmentwise [] _ _ _ _ _ _ _ _ _ rfl run rfl (by simpa using balanced.nonneg)
              (by simpa using balanced.closed)
          rw [close_group no_call] at run ⊢
          refine ⟨out, rest, rfl, fun p mem => ?_, ?_⟩
          · have read := (source p mem).resolve_left List.not_mem_nil
            rw [place, place_append]
            exact List.mem_cons_of_mem _ (List.mem_append_left _ read)
          · have next : start + 1 + body.length + 1 = start + (body.length + 1 + 1) := by omega
            rwa [List.length_cons, List.length_append, List.length_singleton, ← next]

variable {before operand : List Token} {us : List OperatorSymbol}

theorem Run.precedes_later_iff
    (run : Run [] (place 0 (before ++ .symbol (.operator u) :: rest)) sent after)
    (distinct : (sent ++ after).Nodup) (ended : OperandOver rest) :
    (∀ q ∈ sent ++ after, before.length < q.index →
      Precedes (sent ++ after) ⟨.symbol (.operator u), before.length⟩ q) ↔ u.ReleasedBy rest := by
  rw [place_append, Nat.zero_add] at run
  obtain ⟨first, between, later, rfl, run_before, run⟩ := run.of_append
  have read_before := run_before.index_lt
  cases run with
  | @cons _ _ _ _ _ popped later step run =>
      cases step with
      | @operator _ kept =>
          have output_eq : first ++ (popped ++ later) ++ after =
              (first ++ popped) ++ (later ++ after) := by simp
          rw [output_eq] at distinct ⊢
          constructor
          · intro all t head
            by_contra not_popped
            obtain ⟨rest, rfl⟩ := List.head?_eq_some_iff.mp head
            have overtaken := (run.precedes_of_kept (by simpa using not_popped)).trans
              (List.sublist_append_right (first ++ popped) _)
            have next := all ⟨.symbol (.operator t), before.length + 1⟩
              (overtaken.subset (by simp)) (Nat.lt_succ_self _)
            exact next.not_swap distinct overtaken
          · intro released q mem comes_after
            obtain ⟨more, eq⟩ := run.first_of_released ended released
            rw [eq] at mem ⊢
            have not_before : q ∉ first ++ popped := by
              intro mem
              have := read_before q (by grind)
              omega
            have from_here := (List.mem_append.mp mem).resolve_left not_before
            rcases List.mem_cons.mp from_here with rfl | mem
            · exact absurd comes_after (Nat.lt_irrefl _)
            · exact ((List.singleton_sublist.mpr mem).cons_cons _).trans
                (List.sublist_append_right _ _)

theorem Run.exists_block {later : List Token} (h : IsOperand operand)
    (run : Run [] (place 0 (before ++ (operand ++ later))) sent after)
    (waits : ∀ a ∈ before.getLast?, a.isOpening = true ∨ ∃ o, a = .symbol (.operator o)) :
    ∃ between first block rest, sent = first ++ (block ++ rest) ∧
      Run [] (place 0 before) first between ∧
      between.Run (place (before.length + operand.length) later) rest after ∧
      (∀ p ∈ block, before.length ≤ p.index ∧ p.index < before.length + operand.length) ∧
      ∀ p ∈ first ++ (rest ++ after),
        ¬ (before.length ≤ p.index ∧ p.index < before.length + operand.length) := by
  rw [place_append, Nat.zero_add] at run
  obtain ⟨first, between, later, rfl, run_before, run⟩ := run.of_append
  have no_call : ∀ q ∈ between.head?, q.isFunction = false := by
    intro q head
    have last : before.getLast? = some q.token := by
      rw [← run_before.head?_of_last waits, head, Option.map_some]
    rcases waits q.token last with opening | ⟨o, eq⟩
    · by_contra called
      have closed := isOpening_eq_false_of_isFunction (by simpa using called)
      rw [PlacedToken.isOpening, opening] at closed
      cases closed
    · rw [PlacedToken.isFunction, eq]
  obtain ⟨block, rest, rfl, inside, run⟩ := run.exists_operand h no_call
  refine ⟨between, first, block, rest, rfl, run_before, run, fun p mem => ?_, fun p mem => ?_⟩
  · exact ⟨start_le_of_mem_place (inside p mem), index_lt_of_mem_place (inside p mem)⟩
  · -- What waited before the operand was read before it, and comes out later.
    by_cases waited : p ∈ first ++ between
    · have := run_before.index_lt p waited
      omega
    · have read := (run.mem p (by grind)).resolve_left (by grind)
      have := start_le_of_mem_place read
      omega

theorem not_popped_iff {top : Option PlacedToken} :
    (∀ u ∈ us, ∀ q ∈ top, q.poppedBy u = false) ↔
      ∀ p, top.map PlacedToken.token = some (.symbol (.operator p)) →
        ∀ u ∈ us, u.pops p = false := by
  constructor
  · intro kept p eq u mem
    obtain ⟨q, head, token_eq⟩ := Option.map_eq_some_iff.mp eq
    have := kept u mem q head
    rwa [PlacedToken.poppedBy, token_eq] at this
  · intro kept u mem q head
    unfold PlacedToken.poppedBy
    split
    · next s eq =>
      refine kept s ?_ u mem
      rw [head, Option.map_some, eq]
    · rfl

/-- A row of operators comes out right after what comes out of the operand before it if and only if
each of them is released and none of them pops the operator before the operand. -/
theorem Run.row_after_operand_iff (h : IsOperand operand)
    (run : Run [] (place 0 (before ++ (operand ++ (operatorTokens us ++ rest)))) sent after)
    (rearranges : Rearranges (before ++ (operand ++ (operatorTokens us ++ rest))) (sent ++ after))
    (waits : ∀ a ∈ before.getLast?, a.isOpening = true ∨ ∃ o, a = .symbol (.operator o))
    (ended : OperandOver rest) :
    sentFrom before.length operand.length (sent ++ after) ++
        place (before.length + operand.length) (operatorTokens us) <:+: sent ++ after ↔
      AllReleased us rest ∧
        ∀ p, before.getLast? = some (.symbol (.operator p)) → ∀ u ∈ us, u.pops p = false := by
  have distinct := rearranges.nodup
  obtain ⟨between, first, block, later, rfl, run_before, run, inside, outside⟩ :=
    run.exists_block h waits
  have output_eq : first ++ (block ++ later) ++ after = first ++ (block ++ (later ++ after)) := by
    simp
  rw [output_eq] at distinct rearranges ⊢
  have nonempty : block ≠ [] := by
    rintro rfl
    obtain ⟨a, mem, evaluated⟩ := h.exists_evaluated
    obtain ⟨index, placed⟩ := exists_mem_place mem before.length
    have out : ⟨a, index⟩ ∈ first ++ ([] ++ (later ++ after)) := by
      refine rearranges.mem ?_ evaluated
      rw [place_append, place_append, Nat.zero_add]
      exact List.mem_append_right _ (List.mem_append_left _ placed)
    exact outside _ out ⟨start_le_of_mem_place placed, index_lt_of_mem_place placed⟩
  have earlier : ∀ q ∈ between, q.index < before.length + operand.length := fun q mem =>
    Nat.lt_add_right _ (run_before.index_lt q (List.mem_append_right _ mem))
  have row := run.row_comes_first_iff earlier
    (List.nodup_append.mp (List.nodup_append.mp distinct).2.1).2.1 ended
  rw [sentFrom_eq inside outside, append_infix_iff nonempty rfl distinct, row,
    ← run_before.head?_of_last waits]
  exact and_congr_right' not_popped_iff

end Stack

/-- Where an accepted expression has numbers, operators and brackets only, and operands are placed
as they are due, an operator with one operand comes out before all that comes after it if and only
if it is released.  A row of such operators comes out right after what comes out of the operand
before it if and only if each of them is released and none of them pops the operator before the
operand. -/
theorem released_of_parse {table : SymbolTable} {expression : String} {tokens output : List Token}
    (tokenized : tokenize table expression = .ok tokens)
    (accepted : parse table expression = .ok output) (placed : OperandsPlaced tokens) :
    ∃ r, Reordering.ofExpression table expression = .ok r ∧ output = r.postorder ∧
      (∀ before u rest, tokens = before ++ .symbol (.operator u) :: rest → u.isUnary = true →
        ((∀ q ∈ place 0 tokens, before.length < q.index →
            q.token.isNumber = true ∨ q.isOperator = true →
              Precedes r.output.toList ⟨.symbol (.operator u), before.length⟩ q) ↔
          u.ReleasedBy rest)) ∧
      ∀ before operand us rest, tokens = before ++ (operand ++ (operatorTokens us ++ rest)) →
        IsOperand operand → (∀ u ∈ us, u.isUnary = true) →
          (sentFrom before.length operand.length r.output.toList ++
              place (before.length + operand.length) (operatorTokens us) <:+: r.output.toList ↔
            AllReleased us rest ∧ ∀ p, before.getLast? = some (.symbol (.operator p)) →
              ∀ u ∈ us, u.pops p = false) := by
  obtain ⟨read, sent, after, read_tokenized, run, closed, -, rfl⟩ := parse_eq_ok_iff.mp accepted
  obtain rfl := Except.ok.inj (tokenized.symm.trans read_tokenized)
  have reordered : Reordering.ofExpression table expression =
      .ok ⟨tokens.toArray, [], (sent ++ after).toArray⟩ :=
    Reordering.ofExpression_eq_ok_iff.mpr ⟨tokens, sent, after, tokenized, run, closed, rfl⟩
  have rearranges : Rearranges tokens (sent ++ after) := run.rearranges closed
  refine ⟨_, reordered, rfl, ?_, ?_⟩
  · rintro before u rest rfl one
    have ended := placed.operandOver (Token.isBinaryOperator_eq_false one) rfl
    rw [← run.precedes_later_iff rearranges.nodup ended]
    constructor
    · intro all q mem
      obtain ⟨read, evaluated⟩ := (placed.mem_output_iff rearranges).mp mem
      exact fun comes_after => all q read comes_after evaluated
    · intro all q read comes_after evaluated
      exact all q ((placed.mem_output_iff rearranges).mpr ⟨read, evaluated⟩) comes_after
  · rintro before operand us rest rfl h unary
    exact run.row_after_operand_iff h rearranges (placed.waits_of_operand h)
      (placed.operandOver_of_row h unary)

/-- A factorial that binds no more tightly than a sum. -/
def OperatorSymbol.looseFactorial : OperatorSymbol :=
  { factorial with precedence := minus.precedence }

theorem OperatorSymbol.percent_name_ne : "%" ≠ "" := by
  decide

/-- An operator that follows its operand and binds more tightly than a product. -/
def OperatorSymbol.percent : OperatorSymbol :=
  { factorial with name := "%", associativity := .left, name_ne := percent_name_ne }

/-- The standard table with these two operators and the product only. -/
def SymbolTable.ofLooseFactorial : SymbolTable :=
  { standard with operators := [.times, .looseFactorial, .percent] }

/-- The tokens of `(4)%!*3`. -/
def percentOfBracket : List Token :=
  (Formula.ofNat 4).inBrackets.listing ++
    (operatorTokens [.percent, .looseFactorial] ++ .symbol (.operator .times) ::
      (Formula.ofNat 3).listing)

/-- In `(4)%!*3` the factorial pops the percent sign, which so comes out right after the group.  The
product does not pop the factorial, which comes out last. -/
theorem released_of_parse_percent :
    tokenize .ofLooseFactorial "(4)%!*3" = .ok percentOfBracket ∧
    OperandsPlaced percentOfBracket ∧
    ∃ r, Reordering.ofExpression .ofLooseFactorial "(4)%!*3" = .ok r ∧
      parse .ofLooseFactorial "(4)%!*3" = .ok r.postorder ∧
      (∀ q ∈ place 0 percentOfBracket, 3 < q.index →
        q.token.isNumber = true ∨ q.isOperator = true →
          Precedes r.output.toList ⟨.symbol (.operator .percent), 3⟩ q) ∧
      (¬ ∀ q ∈ place 0 percentOfBracket, 4 < q.index →
        q.token.isNumber = true ∨ q.isOperator = true →
          Precedes r.output.toList ⟨.symbol (.operator .looseFactorial), 4⟩ q) ∧
      sentFrom 0 3 r.output.toList ++ place 3 (operatorTokens [.percent]) <:+: r.output.toList ∧
      ¬ sentFrom 0 3 r.output.toList ++ place 3 (operatorTokens [.percent, .looseFactorial]) <:+:
        r.output.toList := by
  have tokenized : tokenize .ofLooseFactorial "(4)%!*3" = .ok percentOfBracket := by
    decide +kernel
  have accepted : (parse .ofLooseFactorial "(4)%!*3").isOk = true := by
    decide +kernel
  have placed : OperandsPlaced percentOfBracket := by
    decide
  obtain ⟨output, parsed⟩ := exists_of_isOk accepted
  obtain ⟨r, reordered, rfl, single, row⟩ := released_of_parse tokenized parsed placed
  have group : IsOperand (Formula.ofNat 4).inBrackets.listing :=
    @IsOperand.group "(" (Formula.ofNat 4).listing ")" (by decide) ⟨_, List.mem_cons_self, rfl⟩
  have released : OperatorSymbol.percent.ReleasedBy (.symbol (.operator .looseFactorial) ::
      .symbol (.operator .times) :: (Formula.ofNat 3).listing) :=
    releasedBy_operator.mpr (by decide)
  have held : ¬ OperatorSymbol.looseFactorial.ReleasedBy (.symbol (.operator .times) ::
      (Formula.ofNat 3).listing) :=
    mt releasedBy_operator.mp (by decide)
  refine ⟨tokenized, placed, r, reordered, parsed, ?_, ?_, ?_, ?_⟩
  · exact (single (Formula.ofNat 4).inBrackets.listing .percent _ rfl rfl).mpr released
  · intro all
    exact held ((single ((Formula.ofNat 4).inBrackets.listing ++
      [Token.symbol (.operator .percent)]) .looseFactorial _ rfl rfl).mp all)
  · refine (row [] _ [.percent] _ rfl group (by decide)).mpr ⟨⟨released, trivial⟩, ?_⟩
    intro p last
    cases last
  · intro together
    obtain ⟨⟨-, released', -⟩, -⟩ :=
      (row [] _ [.percent, .looseFactorial] _ rfl group (by decide)).mp together
    exact held released'

/-- An operator may come out after what comes after it. -/
theorem factorial_after_product :
    ¬ ∀ (table : SymbolTable) (expression : String) (tokens output : List Token) (r : Reordering),
      tokenize table expression = .ok tokens → parse table expression = .ok output →
      OperandsPlaced tokens → Reordering.ofExpression table expression = .ok r →
      ∀ before u rest, tokens = before ++ .symbol (.operator u) :: rest → u.isUnary = true →
        EndsOperand before → ∀ q ∈ place 0 tokens, before.length < q.index →
          q.token.isNumber = true ∨ q.isOperator = true →
            Precedes r.output.toList ⟨.symbol (.operator u), before.length⟩ q := by
  intro first
  have tokenized : tokenize .ofLooseFactorial "2!*3" = .ok ((Formula.ofNat 2).listing ++
      .symbol (.operator .looseFactorial) :: .symbol (.operator .times) ::
        (Formula.ofNat 3).listing) := by
    decide +kernel
  have accepted : (parse .ofLooseFactorial "2!*3").isOk = true := by
    decide +kernel
  have output_eq : (Reordering.ofExpression .ofLooseFactorial "2!*3").map
      (fun r => r.output.toList) = .ok [⟨.number "2" (.ofRatio false 2 1), 0⟩,
        ⟨.number "3" (.ofRatio false 3 1), 3⟩, ⟨.symbol (.operator .times), 2⟩,
        ⟨.symbol (.operator .looseFactorial), 1⟩] := by
    decide +kernel
  obtain ⟨output, parsed⟩ := exists_of_isOk accepted
  cases reordered : Reordering.ofExpression .ofLooseFactorial "2!*3" with
  | error e =>
      rw [reordered] at output_eq
      cases output_eq
  | ok r =>
      rw [reordered] at output_eq
      have output_eq : r.output.toList = _ := Except.ok.inj output_eq
      have placed : ⟨.number "3" (.ofRatio false 3 1), 3⟩ ∈ place 0 ((Formula.ofNat 2).listing ++
          .symbol (.operator .looseFactorial) :: .symbol (.operator .times) ::
            (Formula.ofNat 3).listing) := by
        decide +kernel
      have precedes := first _ _ _ _ r tokenized parsed (by decide) reordered
        (Formula.ofNat 2).listing .looseFactorial _ rfl rfl (@EndsOperand.number [] _ _) _ placed
        (by decide) (Or.inl rfl)
      rw [output_eq] at precedes
      revert precedes
      decide +kernel

end ReversePolish

import Mathlib.Data.List.Forall2
import ReversePolish.Proofs.Calls

/-! # Constants in the place of numbers

A constant is brought into postfix order as a number is: it is sent at once, and the stack stays as
it was.  So where some numbers of an expression become constants the output has the constants in the
place of the numbers, and nothing else changes (`Stack.Run.exists_of_becomes`).

The check of neighbours tells the two apart.  A constant may not have an opening bracket after it,
unless it comes first, and a number may.  An operator after a constant is another matter: it is let
through where it ends the expression.  Where no other operator comes right after a constant, the
brackets alone decide (`parse_of_becomes`). -/

namespace ReversePolish

/-- Whether a token is another one, or a constant in the place of a number. -/
inductive Token.Becomes (c : FunctionSymbol) : Token → Token → Prop
  | same {a} : Becomes c a a
  | constant {literal value} : Becomes c (.number literal value) (.symbol (.function c))

/-- Whether a token that has been placed is another one at the same place, or a constant there in
the place of a number. -/
structure PlacedToken.Becomes (c : FunctionSymbol) (p q : PlacedToken) : Prop where
  index : p.index = q.index
  token : p.token.Becomes c q.token

/-- The output with the tokens that stand at the same places among other tokens. -/
def Reordering.postorderOf (r : Reordering) (tokens : List Token) : List Token :=
  r.output.toList.map fun p => tokens.getD p.index p.token

variable {c : FunctionSymbol}

/-! ### Lists in which numbers become constants -/

theorem forall₂_same (ps : List PlacedToken) : List.Forall₂ (PlacedToken.Becomes c) ps ps :=
  List.forall₂_same.mpr fun _ _ => ⟨rfl, .same⟩

theorem exists_append_of_forall₂ {α β : Type} {R : α → β → Prop} {l : List α} {front back : List β}
    (h : List.Forall₂ R l (front ++ back)) :
    ∃ front' back', l = front' ++ back' ∧ List.Forall₂ R front' front ∧
      List.Forall₂ R back' back :=
  ⟨l.take front.length, l.drop front.length, (List.take_append_drop ..).symm,
    List.forall₂_take_append l front back h, List.forall₂_drop_append l front back h⟩

theorem getElem?_of_mem_place {start : Nat} {tokens : List Token} {p : PlacedToken}
    (mem : p ∈ place start tokens) : start ≤ p.index ∧ tokens[p.index - start]? = some p.token := by
  induction tokens generalizing start with
  | nil => cases mem
  | cons a tokens ih =>
      rcases List.mem_cons.mp mem with rfl | mem
      · refine ⟨Nat.le_refl start, ?_⟩
        dsimp only
        rw [Nat.sub_self, List.getElem?_cons_zero]
      · obtain ⟨later, token_eq⟩ := ih mem
        refine ⟨Nat.le_of_succ_le later, ?_⟩
        obtain ⟨k, eq⟩ : ∃ k, p.index - start = k + 1 := ⟨p.index - (start + 1), by omega⟩
        have k_eq : p.index - (start + 1) = k := by omega
        rw [eq, List.getElem?_cons_succ, ← k_eq]
        exact token_eq

theorem map_token_of_becomes {tokens : List Token} {ps qs : List PlacedToken}
    (becomes : List.Forall₂ (PlacedToken.Becomes c) ps qs) (mem : ∀ q ∈ qs, q ∈ place 0 tokens) :
    qs.map PlacedToken.token = ps.map fun p => tokens.getD p.index p.token := by
  induction becomes with
  | nil => rfl
  | @cons p q ps qs head _ ih =>
      have later := ih fun q mem' => mem q (List.mem_cons_of_mem _ mem')
      obtain ⟨-, at_place⟩ := getElem?_of_mem_place (mem q List.mem_cons_self)
      rw [Nat.sub_zero] at at_place
      rw [List.map_cons, List.map_cons, later, head.index, List.getD_eq_getElem?_getD, at_place,
        Option.getD_some]

/-! ### The stack -/

namespace Stack

variable {stack after : Stack} (nullary : c.isConstant = true)
include nullary

theorem Step.exists_of_becomes {p q : PlacedToken} {sent : List PlacedToken}
    (h : stack.Step p sent after) (becomes : p.Becomes c q) :
    ∃ sent', stack.Step q sent' after ∧ List.Forall₂ (PlacedToken.Becomes c) sent sent' := by
  obtain ⟨token, index⟩ := p
  obtain ⟨token', index'⟩ := q
  obtain ⟨rfl, becomes⟩ := becomes
  cases becomes with
  | same => exact ⟨sent, h, forall₂_same sent⟩
  | constant =>
      cases h with
      | number => exact ⟨_, .constant nullary, .cons ⟨rfl, .constant⟩ .nil⟩

/-- Where numbers become constants the stack does not change, and what is sent has the constants in
their place. -/
theorem Run.exists_of_becomes {start : Nat} {tokens tokens' : List Token} {sent : List PlacedToken}
    (h : stack.Run (place start tokens) sent after)
    (becomes : List.Forall₂ (Token.Becomes c) tokens tokens') :
    ∃ sent', stack.Run (place start tokens') sent' after ∧
      List.Forall₂ (PlacedToken.Becomes c) sent sent' := by
  induction becomes generalizing stack start sent with
  | nil =>
      cases h
      exact ⟨[], .nil, .nil⟩
  | @cons a b tokens tokens' head _ ih =>
      cases h with
      | cons step rest =>
          obtain ⟨first, step', first_becomes⟩ :=
            step.exists_of_becomes nullary (q := ⟨b, start⟩) ⟨rfl, head⟩
          obtain ⟨later, run', later_becomes⟩ := ih rest
          exact ⟨first ++ later, .cons step' run', List.rel_append first_becomes later_becomes⟩

end Stack

/-! ### Neighbours -/

namespace Adjacency

theorem starts_of_becomes {a b : Token} (starts_a : starts a = true) (becomes : a.Becomes c b) :
    starts b = true := by
  cases becomes with
  | same => exact starts_a
  | constant => rfl

theorem ends_of_becomes {a b : Token} (nullary : c.isConstant = true) (ends_a : ends a = true)
    (becomes : a.Becomes c b) : ends b = true := by
  cases becomes with
  | same => exact ends_a
  | constant => exact nullary

theorem fits_of_becomes {previous previous' current current' next next' : Token}
    (nullary : c.isConstant = true) (fit : fits previous current next = true)
    (before : previous.Becomes c previous') (here : current.Becomes c current')
    (after : next.Becomes c next')
    (no_operator : previous' = .symbol (.function c) → ∀ o, current' ≠ .symbol (.operator o))
    (no_opening : current' = .symbol (.function c) → next'.isOpening = false) :
    fits previous' current' next' = true := by
  cases here with
  | constant =>
      rw [fits_function, nullary, no_opening rfl]
      rfl
  | same =>
      rcases current with _ | (f | o | _ | _ | _)
      case symbol.function =>
        rw [fits_function] at fit ⊢
        cases after with
        | same => exact fit
        | constant => exact fit
      case symbol.operator =>
        cases before with
        | constant => exact absurd rfl (no_operator rfl o)
        | same =>
            cases after with
            | same => exact fit
            | constant => exact fit
      all_goals rfl

variable {tokens tokens' : List Token} (nullary : c.isConstant = true)
include nullary

theorem eq_zero_of_opening {i : Nat} {bracket : String} (fitting : firstMisplaced? tokens = none)
    (at_i : tokens[i]? = some (.symbol (.function c)))
    (at_next : tokens[i + 1]? = some (.symbol (.opening bracket))) : i = 0 := by
  by_contra later
  obtain ⟨inside, token_eq⟩ := List.getElem?_eq_some_iff.mp at_i
  have eq : tokens = tokens.take i ++ .symbol (.function c) :: tokens.drop (i + 1) := by
    rw [← token_eq, ← List.drop_eq_getElem_cons inside, List.take_append_drop]
  have not_first : tokens.take i ≠ [] := by
    intro nothing
    rcases List.take_eq_nil_iff.mp nothing with zero | empty
    · exact later zero
    · rw [empty] at at_i
      cases at_i
  have called := called_of_fitting fitting eq not_first
  rw [List.head?_drop, at_next, nullary] at called
  cases called

/-- Where all tokens fit between their neighbours, they still do when numbers become constants, if
neither an operator comes right after a constant nor an opening bracket, but at the ends. -/
theorem all_fit_of_becomes (becomes : List.Forall₂ (Token.Becomes c) tokens tokens')
    (fit : ∀ before previous current next rest,
      tokens = before ++ previous :: current :: next :: rest → fits previous current next = true)
    (no_operator : ∀ i o, tokens'[i]? = some (.symbol (.function c)) →
      tokens'[i + 1]? = some (.symbol (.operator o)) → tokens'.length = i + 2)
    (no_opening : ∀ i bracket, tokens'[i]? = some (.symbol (.function c)) →
      tokens'[i + 1]? = some (.symbol (.opening bracket)) → i = 0)
    {before' rest' : List Token} {previous' current' next' : Token}
    (eq : tokens' = before' ++ previous' :: current' :: next' :: rest') :
    fits previous' current' next' = true := by
  subst eq
  obtain ⟨before, back, rfl, _, back_becomes⟩ := exists_append_of_forall₂ becomes
  obtain ⟨previous, tail, previous_becomes, tail_becomes, rfl⟩ :=
    List.forall₂_cons_right_iff.mp back_becomes
  obtain ⟨current, last, current_becomes, last_becomes, rfl⟩ :=
    List.forall₂_cons_right_iff.mp tail_becomes
  obtain ⟨next, rest, next_becomes, -, rfl⟩ := List.forall₂_cons_right_iff.mp last_becomes
  have at_index (k : Nat) :
      (before' ++ previous' :: current' :: next' :: rest')[before'.length + k]? =
        (previous' :: current' :: next' :: rest')[k]? := by
    rw [List.getElem?_append_right (Nat.le_add_right ..), Nat.add_sub_cancel_left]
  refine fits_of_becomes nullary (fit before previous current next rest rfl) previous_becomes
    current_becomes next_becomes ?_ ?_
  · rintro rfl o rfl
    have length_eq := no_operator before'.length o (at_index 0) (at_index 1)
    simp only [List.length_append, List.length_cons] at length_eq
    omega
  · rintro rfl
    by_contra opening
    rcases next' with _ | (_ | _ | bracket | _ | _)
    case symbol.opening =>
      have first := no_opening (before'.length + 1) bracket (at_index 1) (at_index 2)
      cases first
    all_goals exact opening rfl

/-- Where numbers become constants and no operator comes right after a constant but at the end, no
token is misplaced exactly if no opening bracket comes right after a constant but at the start. -/
theorem firstMisplaced?_of_becomes_iff (fitting : firstMisplaced? tokens = none)
    (becomes : List.Forall₂ (Token.Becomes c) tokens tokens')
    (no_operator : ∀ i o, tokens'[i]? = some (.symbol (.function c)) →
      tokens'[i + 1]? = some (.symbol (.operator o)) → tokens'.length = i + 2) :
    firstMisplaced? tokens' = none ↔
      ∀ i bracket, tokens'[i]? = some (.symbol (.function c)) →
        tokens'[i + 1]? = some (.symbol (.opening bracket)) → i = 0 := by
  refine ⟨fun fitting' i bracket => eq_zero_of_opening nullary fitting', fun no_opening => ?_⟩
  obtain ⟨fit, start, finish⟩ := firstMisplaced?_eq_none_iff.mp fitting
  refine firstMisplaced?_eq_none_iff.mpr ⟨?_, ?_, ?_⟩
  · intro before previous current next rest eq
    exact all_fit_of_becomes nullary becomes fit no_operator no_opening eq
  · intro b mem
    cases becomes with
    | nil => cases mem
    | cons head _ =>
        obtain rfl := Option.some.inj mem
        exact starts_of_becomes (start _ rfl) head
  · intro b mem
    obtain ⟨front', rfl⟩ := List.getLast?_eq_some_iff.mp mem
    obtain ⟨front, back, rfl, -, back_becomes⟩ := exists_append_of_forall₂ becomes
    obtain ⟨a, _, last, nothing, rfl⟩ := List.forall₂_cons_right_iff.mp back_becomes
    cases nothing
    exact ends_of_becomes nullary (finish a (by simp)) last

end Adjacency

/-! ### Whole expressions -/

/-- Where numbers of an accepted expression become constants, what comes out has the constants in
their place, or else a token is misplaced.  If no operator comes right after a constant but at the
end, the expression is accepted exactly if no opening bracket comes right after a constant but at
the start. -/
theorem parse_of_becomes {table : SymbolTable} {expression expression' : String}
    {tokens tokens' output : List Token} (nullary : c.isConstant = true)
    (tokenized : tokenize table expression = .ok tokens)
    (tokenized' : tokenize table expression' = .ok tokens')
    (becomes : List.Forall₂ (Token.Becomes c) tokens tokens')
    (accepted : parse table expression = .ok output) :
    ∃ r, Reordering.ofExpression table expression = .ok r ∧ output = r.postorder ∧
      (parse table expression' = .ok (r.postorderOf tokens') ∨
        ∃ p, parse table expression' = .error (.misplaced p)) ∧
      ((∀ i o, tokens'[i]? = some (.symbol (.function c)) →
          tokens'[i + 1]? = some (.symbol (.operator o)) → tokens'.length = i + 2) →
        (parse table expression' = .ok (r.postorderOf tokens') ↔
          ∀ i bracket, tokens'[i]? = some (.symbol (.function c)) →
            tokens'[i + 1]? = some (.symbol (.opening bracket)) → i = 0)) := by
  obtain ⟨read, sent, after, read_tokenized, run, closed, fitting, rfl⟩ :=
    parse_eq_ok_iff.mp accepted
  obtain rfl := Except.ok.inj (tokenized.symm.trans read_tokenized)
  obtain ⟨sent', run', sent_becomes⟩ := run.exists_of_becomes nullary becomes
  have reordered : Reordering.ofExpression table expression =
      .ok ⟨tokens.toArray, [], (sent ++ after).toArray⟩ :=
    Reordering.ofExpression_eq_ok_iff.mpr ⟨tokens, sent, after, tokenized, run, closed, rfl⟩
  have output_eq : (sent' ++ after).map PlacedToken.token =
      Reordering.postorderOf ⟨tokens.toArray, [], (sent ++ after).toArray⟩ tokens' := by
    refine map_token_of_becomes (List.rel_append sent_becomes (forall₂_same after)) ?_
    exact fun q mem => (run'.mem q mem).resolve_left List.not_mem_nil
  -- The stack treats both expressions alike, so only neighbours can be at fault.
  have outcome := parse_of_run tokenized' run' closed
  rw [output_eq] at outcome
  refine ⟨_, reordered, rfl, ?_, fun no_operator => ?_⟩
  · rw [outcome]
    cases Adjacency.firstMisplaced? tokens' with
    | none => exact Or.inl rfl
    | some p => exact Or.inr ⟨p, rfl⟩
  · rw [outcome, ← Adjacency.firstMisplaced?_of_becomes_iff nullary fitting becomes no_operator]
    cases Adjacency.firstMisplaced? tokens' with
    | none => exact iff_of_true rfl rfl
    | some p => exact iff_of_false (fun h => by cases h) (Option.some_ne_none p)

namespace Formula

/-- The tokens of `a(2)-b!`, which no formula lists. -/
def besideBracket (a b : Formula) : List Token :=
  a.listing ++ ((ofNat 2).inBrackets.difference b.factorial).listing

/-- The formula of `pi`. -/
def pi : Formula := .constant .pi rfl

end Formula

/-- A constant may come before a bracket at the start, and before an operator at the end. -/
theorem parse_of_becomes_pi :
    FunctionSymbol.pi.isConstant = true ∧
    tokenize .withPi "4(2)-3!" = .ok (Formula.besideBracket (.ofNat 4) (.ofNat 3)) ∧
    tokenize .withPi "pi(2)-pi!" = .ok (Formula.besideBracket .pi .pi) ∧
    List.Forall₂ (Token.Becomes .pi) (Formula.besideBracket (.ofNat 4) (.ofNat 3))
      (Formula.besideBracket .pi .pi) ∧
    ∃ r, Reordering.ofExpression .withPi "4(2)-3!" = .ok r ∧
      parse .withPi "4(2)-3!" = .ok r.postorder ∧
      parse .withPi "pi(2)-pi!" = .ok (r.postorderOf (Formula.besideBracket .pi .pi)) := by
  have tokenized : tokenize .withPi "4(2)-3!" =
      .ok (Formula.besideBracket (.ofNat 4) (.ofNat 3)) := by
    decide +kernel
  have tokenized' : tokenize .withPi "pi(2)-pi!" = .ok (Formula.besideBracket .pi .pi) := by
    decide +kernel
  have becomes : List.Forall₂ (Token.Becomes .pi) (Formula.besideBracket (.ofNat 4) (.ofNat 3))
      (Formula.besideBracket .pi .pi) :=
    .cons .constant (.cons .same (.cons .same (.cons .same (.cons .same
      (.cons .constant (.cons .same .nil))))))
  have accepted : (parse .withPi "4(2)-3!").isOk = true := by
    decide +kernel
  -- The constants of the second expression are its first token and the last but one.
  have places (i : Nat) (at_i : (Formula.besideBracket .pi .pi)[i]? =
      some (.symbol (.function .pi))) : i = 0 ∨ i = 5 := by
    obtain ⟨inside, -⟩ := List.getElem?_eq_some_iff.mp at_i
    have inside : i < 7 := inside
    revert at_i
    revert i
    decide
  obtain ⟨output, parsed⟩ := exists_of_isOk accepted
  obtain ⟨r, reordered, rfl, -, accepted_iff⟩ :=
    parse_of_becomes rfl tokenized tokenized' becomes parsed
  refine ⟨rfl, tokenized, tokenized', becomes, r, reordered, parsed, (accepted_iff ?_).mpr ?_⟩
  · intro i o at_i at_next
    rcases places i at_i with rfl | rfl
    · cases at_next
    · rfl
  · intro i bracket at_i at_next
    rcases places i at_i with rfl | rfl
    · rfl
    · cases at_next

/-- A bracket may come after a number where it may not come after a constant. -/
theorem number_before_bracket :
    ¬ ∀ (table : SymbolTable) (c : FunctionSymbol) (expression expression' : String)
      (tokens tokens' output : List Token), c ∈ table.functions → c.isConstant = true →
      tokenize table expression = .ok tokens → tokenize table expression' = .ok tokens' →
      List.Forall₂ (Token.Becomes c) tokens tokens' → parse table expression = .ok output →
        ∃ output', parse table expression' = .ok output' := by
  intro accepted
  have tokenized : tokenize .withPi "2-3(4)" = .ok
      (((Formula.ofNat 2).difference (.ofNat 3)).listing ++ (Formula.ofNat 4).inBrackets.listing) := by
    decide +kernel
  have tokenized' : tokenize .withPi "2-pi(4)" = .ok
      (((Formula.ofNat 2).difference .pi).listing ++ (Formula.ofNat 4).inBrackets.listing) := by
    decide +kernel
  have parsed : parse .withPi "2-3(4)" = .ok
      [.number "2" (.ofRatio false 2 1), .number "3" (.ofRatio false 3 1),
        .number "4" (.ofRatio false 4 1), .symbol (.operator .minus)] := by
    decide +kernel
  have misplaced : parse .withPi "2-pi(4)" = .error (.misplaced ⟨.symbol (.function .pi), 2⟩) := by
    decide +kernel
  have becomes : List.Forall₂ (Token.Becomes .pi)
      (((Formula.ofNat 2).difference (.ofNat 3)).listing ++ (Formula.ofNat 4).inBrackets.listing)
      (((Formula.ofNat 2).difference .pi).listing ++ (Formula.ofNat 4).inBrackets.listing) :=
    .cons .same (.cons .same (.cons .constant (.cons .same (.cons .same (.cons .same .nil)))))
  obtain ⟨output', parsed'⟩ := accepted _ .pi _ _ _ _ _ List.mem_cons_self rfl tokenized tokenized'
    becomes parsed
  rw [misplaced] at parsed'
  cases parsed'

end ReversePolish

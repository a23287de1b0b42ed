import ReversePolish.Proofs.Conservation
import ReversePolish.Proofs.Formula
import ReversePolish.Proofs.Receiving

/-! # Bracketed groups

What stands in a pair of brackets is converted as if it stood alone: the dividers that are directly
within the brackets cut it into `segments`, and what comes out between the brackets is what comes
out of the segments one by one (`output_of_group`).

The stack below an open bracket is not touched before the bracket closes (`Step.frame`), so a run on
top of it is a run from the empty stack, where the tokens only have other places
(`Run.relocate`). -/

namespace ReversePolish

/-- The segments into which the dividers outside of all brackets cut tokens, where a given number of
brackets is open before the tokens. -/
def segments : Int → List Token → List (List Token)
  | _, [] => [[]]
  | depth, a :: tokens =>
    if depth = 0 ∧ a.isDivider = true then [] :: segments 0 tokens
    else (segments (depth + bracketDepth [a]) tokens).modifyHead (a :: ·)

/-- The same token in another place. -/
def PlacedToken.relocate (f : Nat → Nat) (p : PlacedToken) : PlacedToken :=
  { p with index := f p.index }

theorem map_relocate_place (start offset : Nat) (tokens : List Token) :
    (place (start + offset) tokens).map (PlacedToken.relocate (· - start)) =
      place offset tokens := by
  induction tokens generalizing offset with
  | nil => rfl
  | cons a tokens ih =>
      have here : start + offset - start = offset := by omega
      rw [place, place, List.map_cons, Nat.add_assoc, ih, PlacedToken.relocate, here]

namespace Stack

variable {stack base after : Stack} {held opened p : PlacedToken} {ps sent : List PlacedToken}

/-! ### Other places -/

theorem Step.relocate (h : Step stack p sent after) (f : Nat → Nat) :
    Step (stack.map (PlacedToken.relocate f)) (p.relocate f)
      (sent.map (PlacedToken.relocate f)) (after.map (PlacedToken.relocate f)) := by
  cases h with
  | number => exact Step.number
  | constant nullary => exact Step.constant nullary
  | function called => exact Step.function called
  | opening => exact Step.opening
  | operator all stop =>
      rw [List.map_append]
      refine Step.operator ?_ ?_
      · simpa [PlacedToken.relocate, PlacedToken.poppedBy] using all
      · simpa [PlacedToken.relocate, PlacedToken.poppedBy] using stop
  | divider all hit =>
      rw [List.map_append]
      refine Step.divider ?_ hit
      simpa [PlacedToken.relocate, PlacedToken.isOperator] using all
  | closing all hit no_call =>
      rw [List.map_append]
      refine Step.closing ?_ hit ?_
      · simpa [PlacedToken.relocate, PlacedToken.isOperator] using all
      · simpa [PlacedToken.relocate, PlacedToken.isFunction] using no_call
  | closingCall all hit called =>
      rw [List.map_append, List.map_append]
      refine Step.closingCall ?_ hit called
      simpa [PlacedToken.relocate, PlacedToken.isOperator] using all

theorem Run.relocate (h : stack.Run ps sent after) (f : Nat → Nat) :
    Run (stack.map (PlacedToken.relocate f)) (ps.map (PlacedToken.relocate f))
      (sent.map (PlacedToken.relocate f)) (after.map (PlacedToken.relocate f)) := by
  induction h with
  | nil => exact Run.nil
  | cons step _ ih =>
      rw [List.map_append]
      exact Run.cons (step.relocate f) ih

/-! ### Below an open bracket -/

theorem eq_of_first_opening {front front' back back' : Stack} {q : PlacedToken}
    (closed : ∀ r ∈ front, r.isOpening = false) (closed' : ∀ r ∈ front', r.isOpening = false)
    (hit : p.isOpening = true) (hit' : q.isOpening = true)
    (eq : front ++ p :: back = front' ++ q :: back') : front = front' ∧ p = q ∧ back = back' := by
  have cut := @Text.takeWhile_dropWhile_append _ (fun r => !r.isOpening) front (p :: back)
    (by simpa using closed) (by simpa using hit)
  have cut' := @Text.takeWhile_dropWhile_append _ (fun r => !r.isOpening) front' (q :: back')
    (by simpa using closed') (by simpa using hit')
  rw [eq] at cut
  obtain ⟨rfl, rfl⟩ := List.cons.inj (cut.2.symm.trans cut'.2)
  exact ⟨cut.1.symm.trans cut'.1, rfl, rfl⟩

theorem exists_first_opening (some_open : 0 < stack.countP PlacedToken.isOpening) :
    ∃ front q back, stack = front ++ q :: back ∧ (∀ r ∈ front, r.isOpening = false) ∧
      q.isOpening = true := by
  obtain ⟨q, mem, hit⟩ := List.countP_pos_iff.mp some_open
  cases found : stack.find? PlacedToken.isOpening with
  | none =>
      have := List.find?_eq_none.mp found q mem
      contradiction
  | some q =>
      obtain ⟨hit, front, back, rfl, closed⟩ := List.find?_eq_some_iff_append.mp found
      exact ⟨front, q, back, rfl, by simpa using closed, hit⟩

theorem exists_left_of_append {front back : Stack} (eq : stack ++ opened :: base = front ++ back)
    (out : opened ∉ front) : ∃ left, stack = front ++ left ∧ back = left ++ opened :: base := by
  rcases List.append_eq_append_iff.mp eq with ⟨more, front_eq, rest_eq⟩ | cut
  · cases more with
    | nil => exact ⟨[], by simp [front_eq], by simpa using rest_eq.symm⟩
    | cons q more =>
        obtain rfl : opened = q := (List.cons.inj rest_eq).1
        exact absurd (by simp [front_eq]) out
  · exact cut

theorem not_opening_of_operators {operators : List PlacedToken}
    (all : ∀ q ∈ operators, q.isOperator = true) : ∀ q ∈ operators, q.isOpening = false :=
  fun q mem => isOpening_eq_false_of_isOperator (all q mem)

/-- What is no operator keeps what lies below it from a token that closes or divides only what is in
brackets above it.  It may leave the stack all the same: if it is a function, by being called. -/
theorem Step.above (h : Step (stack ++ held :: base) p sent after)
    (not_operator : held.isOperator = false)
    (inner : p.token.isClosing = true ∨ p.token.isDivider = true →
      0 < stack.countP PlacedToken.isOpening) :
    (∃ stack' : Stack, after = stack' ++ held :: base ∧ Step stack p sent stack') ∨
      held.isFunction = true ∧ after = base := by
  generalize eq : stack ++ held :: base = whole at h
  cases h with
  | number => exact Or.inl ⟨stack, eq.symm, Step.number⟩
  | constant nullary => exact Or.inl ⟨stack, eq.symm, Step.constant nullary⟩
  | function called =>
      refine Or.inl ⟨_ :: stack, ?_, Step.function called⟩
      rw [← eq, List.cons_append]
  | opening =>
      refine Or.inl ⟨_ :: stack, ?_, Step.opening⟩
      rw [← eq, List.cons_append]
  | @operator _ _ o index all stop =>
      -- An operator pops operators only.
      have not_popped : held ∉ sent := by
        intro mem
        rw [isOperator_of_poppedBy (all held mem)] at not_operator
        cases not_operator
      obtain ⟨left, rfl, rfl⟩ := exists_left_of_append eq not_popped
      refine Or.inl ⟨⟨.symbol (.operator o), index⟩ :: left, rfl, Step.operator all ?_⟩
      cases left with
      | nil => simp
      | cons q left => exact stop
  | divider all hit =>
      obtain ⟨front, q, back, rfl, closed, hit'⟩ := exists_first_opening (inner (Or.inr rfl))
      rw [List.append_assoc, List.cons_append] at eq
      obtain ⟨rfl, rfl, rfl⟩ :=
        eq_of_first_opening closed (not_opening_of_operators all) hit' hit eq
      exact Or.inl ⟨q :: back, rfl, Step.divider all hit⟩
  | closing all hit no_call =>
      obtain ⟨front, q, back, rfl, closed, hit'⟩ := exists_first_opening (inner (Or.inl rfl))
      rw [List.append_assoc, List.cons_append] at eq
      obtain ⟨rfl, rfl, rfl⟩ :=
        eq_of_first_opening closed (not_opening_of_operators all) hit' hit eq
      refine Or.inl ⟨back, rfl, Step.closing all hit ?_⟩
      cases back with
      | nil => simp
      | cons r back => exact no_call
  | closingCall all hit called =>
      obtain ⟨front, q, back, rfl, closed, hit'⟩ := exists_first_opening (inner (Or.inl rfl))
      rw [List.append_assoc, List.cons_append] at eq
      obtain ⟨rfl, rfl, rest_eq⟩ :=
        eq_of_first_opening closed (not_opening_of_operators all) hit' hit eq
      cases back with
      | nil =>
          obtain ⟨rfl, rfl⟩ := List.cons.inj rest_eq
          exact Or.inr ⟨called, rfl⟩
      | cons r back =>
          obtain ⟨rfl, rfl⟩ := List.cons.inj rest_eq
          exact Or.inl ⟨back, rfl, Step.closingCall all hit called⟩

/-- What lies below an open bracket is left alone by a token, unless that closes the bracket or
divides what is directly within it. -/
theorem Step.frame (h : Step (stack ++ opened :: base) p sent after)
    (hit : opened.isOpening = true)
    (inner : p.token.isClosing = true ∨ p.token.isDivider = true →
      0 < stack.countP PlacedToken.isOpening) :
    ∃ stack' : Stack, after = stack' ++ opened :: base ∧ Step stack p sent stack' := by
  rcases h.above (isOperator_eq_false_of_isOpening hit) inner with framed | ⟨function, -⟩
  · exact framed
  · rw [isOpening_eq_false_of_isFunction function] at hit
    cases hit

theorem Step.divider_within {literal : String} {index : Nat}
    (h : Step (stack ++ opened :: base) ⟨.symbol (.divider literal), index⟩ sent after)
    (hit : opened.isOpening = true) (closed : ∀ q ∈ stack, q.isOpening = false) :
    (∀ q ∈ stack, q.isOperator = true) ∧ sent = stack ∧ after = opened :: base := by
  generalize eq : stack ++ opened :: base = whole at h
  cases h with
  | divider all hit' =>
      obtain ⟨rfl, rfl, rfl⟩ :=
        eq_of_first_opening closed (not_opening_of_operators all) hit hit' eq
      exact ⟨all, rfl, rfl⟩

theorem Step.closing_within {literal : String} {index : Nat}
    (h : Step (stack ++ opened :: base) ⟨.symbol (.closing literal), index⟩ sent after)
    (hit : opened.isOpening = true) (closed : ∀ q ∈ stack, q.isOpening = false) :
    (∀ q ∈ stack, q.isOperator = true) ∧ sent = stack ++ (close (opened :: base)).sent ∧
      after = (close (opened :: base)).stack := by
  generalize eq : stack ++ opened :: base = whole at h
  cases h with
  | closing all hit' no_call =>
      obtain ⟨rfl, rfl, rfl⟩ :=
        eq_of_first_opening closed (not_opening_of_operators all) hit hit' eq
      rw [close_group no_call, List.append_nil]
      exact ⟨all, rfl, rfl⟩
  | closingCall all hit' called =>
      obtain ⟨rfl, rfl, rfl⟩ :=
        eq_of_first_opening closed (not_opening_of_operators all) hit hit' eq
      rw [close_call called]
      exact ⟨all, rfl, rfl⟩

/-! ### Segments -/

/-- Segments are received one by one, the first from a given stack and each other one from the empty
stack, up to operators that wait, and all this comes out. -/
inductive Segmentwise : Stack → Nat → List (List Token) → List PlacedToken → Prop
  | last {stack after : Stack} {start : Nat} {segment : List Token} {sent : List PlacedToken} :
      stack.Run (place start segment) sent after → (∀ q ∈ after, q.isOperator = true) →
      Segmentwise stack start [segment] (sent ++ after)
  | more {stack after : Stack} {start : Nat} {segment : List Token} {rest : List (List Token)}
      {sent out : List PlacedToken} :
      stack.Run (place start segment) sent after → (∀ q ∈ after, q.isOperator = true) →
      Segmentwise [] (start + segment.length + 1) rest out →
      Segmentwise stack start (segment :: rest) (sent ++ after ++ out)

theorem Segmentwise.cons {token : Token} {start : Nat} {parts : List (List Token)}
    {between : Stack} {out : List PlacedToken} (step : stack.Step ⟨token, start⟩ sent between)
    (h : Segmentwise between (start + 1) parts out) :
    Segmentwise stack start (parts.modifyHead (token :: ·)) (sent ++ out) := by
  cases h with
  | last run operators =>
      rw [← List.append_assoc]
      exact Segmentwise.last (Run.cons step run) operators
  | @more _ _ _ segment _ _ _ run operators rest =>
      have next : start + 1 + segment.length + 1 = start + (segment.length + 1) + 1 := by omega
      rw [← List.append_assoc, ← List.append_assoc]
      rw [next] at rest
      exact Segmentwise.more (Run.cons step run) operators rest

theorem ofTokens_of_segment {start : Nat} {segment : List Token}
    (run : Run [] (place start segment) sent after) (operators : ∀ q ∈ after, q.isOperator = true) :
    ∃ part, Reordering.ofTokens segment = .ok part ∧
      part.postorder = (sent ++ after).map PlacedToken.token := by
  have moved := map_relocate_place start 0 segment
  have alone := run.relocate (· - start)
  rw [Nat.add_zero] at moved
  rw [List.map_nil, moved] at alone
  have closed : ∀ q ∈ after.map (PlacedToken.relocate (· - start)), q.isOpening = false := by
    intro q mem
    obtain ⟨r, waiting, rfl⟩ := List.mem_map.mp mem
    exact isOpening_eq_false_of_isOperator (operators r waiting)
  have same_tokens : PlacedToken.token ∘ PlacedToken.relocate (· - start) = PlacedToken.token := rfl
  refine ⟨_, Reordering.ofTokens_of_run alone closed, ?_⟩
  rw [Reordering.postorder, ← List.map_append, List.map_map, same_tokens]

theorem Segmentwise.exists_ofTokens {start : Nat} {parts : List (List Token)}
    {out : List PlacedToken} (h : Segmentwise [] start parts out) :
    ∃ results, List.Forall₂ (fun part r => Reordering.ofTokens part = .ok r) parts results ∧
      out.map PlacedToken.token = results.flatMap Reordering.postorder := by
  generalize empty : ([] : Stack) = stack at h
  induction h with
  | last run operators =>
      subst empty
      obtain ⟨r, result, output⟩ := ofTokens_of_segment run operators
      exact ⟨[r], .cons result .nil, by simp [output]⟩
  | more run operators _ ih =>
      subst empty
      obtain ⟨r, result, output⟩ := ofTokens_of_segment run operators
      obtain ⟨results, all, outputs⟩ := ih rfl
      refine ⟨r :: results, .cons result all, ?_⟩
      rw [List.map_append, ← output, outputs, List.flatMap_cons]

theorem not_opening_of_countP (none_open : (stack.countP PlacedToken.isOpening : Int) = 0) :
    ∀ q ∈ stack, q.isOpening = false := by
  have zero : stack.countP PlacedToken.isOpening = 0 := by omega
  simpa using List.countP_eq_zero.mp zero

theorem countP_pos_of_uncut {a : Token} {depth : Int}
    (depth_eq : (stack.countP PlacedToken.isOpening : Int) = depth)
    (nonneg : 0 ≤ depth + bracketDepth [a]) (uncut : ¬ (depth = 0 ∧ a.isDivider = true)) :
    a.isClosing = true ∨ a.isDivider = true → 0 < stack.countP PlacedToken.isOpening := by
  rintro (closes | divides)
  · rcases a with _ | (_ | _ | _ | literal | _) <;> try cases closes
    rw [bracketDepth_closing] at nonneg
    omega
  · have : depth ≠ 0 := fun zero => uncut ⟨zero, divides⟩
    omega

/-- A group, up to the bracket that closes it, on top of an open bracket: its segments come out one
by one, and the bracket is closed. -/
theorem exists_segmentwise {body later : List Token} {closing : String} {depth : Int}
    {start : Nat} {total : List PlacedToken} (hit : opened.isOpening = true)
    (run : Run (stack ++ opened :: base)
      (place start (body ++ .symbol (.closing closing) :: later)) total after)
    (depth_eq : (stack.countP PlacedToken.isOpening : Int) = depth)
    (nonneg : ∀ front, front <+: body → 0 ≤ depth + bracketDepth front)
    (closed : depth + bracketDepth body = 0) :
    ∃ out rest, total = out ++ ((close (opened :: base)).sent ++ rest) ∧
      Segmentwise stack start (segments depth body) out ∧
        (∀ p ∈ out, p ∈ stack ∨ p ∈ place start body) ∧
          Run (close (opened :: base)).stack (place (start + body.length + 1) later) rest after := by
  -- The depth within the group is that of the stack above the bracket, after each token.
  induction body generalizing stack start depth total with
  | nil =>
      rw [bracketDepth_nil, Int.add_zero, ← depth_eq] at closed
      cases run with
      | @cons _ between _ _ _ sent rest step run =>
          obtain ⟨operators, rfl, rfl⟩ := step.closing_within hit (not_opening_of_countP closed)
          refine ⟨stack, rest, List.append_assoc .., ?_, fun p mem => Or.inl mem, run⟩
          exact @Segmentwise.last _ _ _ _ [] Run.nil operators
  | cons a body ih =>
      have next : start + (body.length + 1) + 1 = start + 1 + body.length + 1 := by omega
      rw [bracketDepth_cons] at closed
      have nonneg' : ∀ front, front <+: body →
          0 ≤ depth + bracketDepth [a] + bracketDepth front := by
        intro front is_front
        have := nonneg (a :: front) (List.prefix_cons_inj a |>.mpr is_front)
        rw [bracketDepth_cons] at this
        omega
      cases run with
      | @cons _ between _ _ _ sent rest step run =>
          rw [segments, List.length_cons, next]
          split
          · next cut =>
            -- The next segment starts from the empty stack, as it does alone.
            obtain ⟨rfl, divider⟩ := cut
            rcases a with _ | (_ | _ | _ | _ | literal) <;> try cases divider
            have flat : bracketDepth [Token.symbol (.divider literal)] = 0 := rfl
            rw [flat] at closed nonneg'
            rw [Int.zero_add] at closed
            obtain ⟨operators, rfl, rfl⟩ := step.divider_within hit (not_opening_of_countP depth_eq)
            obtain ⟨out, rest, rfl, parts, source, run⟩ :=
              @ih [] 0 _ _ run rfl nonneg' closed
            refine ⟨sent ++ out, rest, (List.append_assoc ..).symm, ?_, ?_, run⟩
            · exact @Segmentwise.more _ _ _ [] _ [] _ Run.nil operators parts
            · exact mem_of_mem_cons (by simpa using fun q mem => Or.inl mem) source
          · next uncut =>
            have here := nonneg' [] List.nil_prefix
            rw [bracketDepth_nil, Int.add_zero] at here
            obtain ⟨stack', rfl, alone⟩ := step.frame hit (countP_pos_of_uncut depth_eq here uncut)
            have depth_eq' := alone.countP_isOpening
            dsimp only at depth_eq'
            rw [depth_eq] at depth_eq'
            obtain ⟨out, rest, rfl, parts, source, run⟩ :=
              ih run depth_eq' nonneg' (by omega)
            refine ⟨sent ++ out, rest, (List.append_assoc ..).symm, parts.cons alone, ?_, run⟩
            exact mem_of_mem_cons alone.mem source

theorem Run.top_of_waits {tokens : List Token} {a : Token}
    (h : Run [] (place 0 (tokens ++ [a])) sent after)
    (waits : PlacedToken.waits ⟨a, tokens.length⟩ = true) :
    ∃ below, after = ⟨a, tokens.length⟩ :: below := by
  rw [place_append, Nat.zero_add] at h
  obtain ⟨_, between, _, rfl, -, last⟩ := h.of_append
  cases last with
  | cons step rest =>
      cases rest
      cases step with
      | function => exact ⟨_, rfl⟩
      | operator => exact ⟨_, rfl⟩
      | opening => exact ⟨_, rfl⟩
      | constant nullary => simp [PlacedToken.waits, nullary] at waits
      | number => cases waits
      | divider => cases waits
      | closing => cases waits
      | closingCall => cases waits

theorem Run.top_function {tokens : List Token} {f : FunctionSymbol}
    (h : Run [] (place 0 (tokens ++ [.symbol (.function f)])) sent after)
    (positive : f.isConstant = false) :
    ∃ below, after = ⟨.symbol (.function f), tokens.length⟩ :: below :=
  h.top_of_waits (by simp [PlacedToken.waits, positive])

end Stack

/-- What comes out of a group stands together, wherever the group is, and is what comes out of its
segments alone, one after another.  A function whose arguments they are comes right after it. -/
theorem output_of_group {table : SymbolTable} {expression : String} {r : Reordering}
    {before body later : List Token} {opening closing : String}
    (reordered : Reordering.ofExpression table expression = .ok r)
    (group : r.read.toList =
      before ++ .symbol (.opening opening) :: (body ++ .symbol (.closing closing) :: later))
    (balanced : Balanced body) :
    (∀ p ∈ r.output.toList, p ∈ place 0 r.read.toList) ∧
    ∃ front block back results, r.output.toList = front ++ block ++ back ∧
      (∀ p ∈ block, before.length < p.index ∧ p.index < before.length + 1 + body.length) ∧
      (∀ p ∈ front ++ back,
        ¬ (before.length < p.index ∧ p.index < before.length + 1 + body.length)) ∧
      List.Forall₂ (fun segment result => Reordering.ofTokens segment = .ok result)
        (segments 0 body) results ∧
      block.map PlacedToken.token = results.flatMap Reordering.postorder ∧
      ∀ start f, before = start ++ [.symbol (.function f)] → f.isConstant = false →
        back.head? = some ⟨.symbol (.function f), start.length⟩ := by
  obtain ⟨tokens, sent, after, -, whole, -, rfl⟩ := Reordering.ofExpression_eq_ok_iff.mp reordered
  have sources : ∀ p ∈ sent ++ after, p ∈ place 0 tokens :=
    fun p mem => (whole.mem p mem).resolve_left List.not_mem_nil
  refine ⟨sources, ?_⟩
  obtain rfl : tokens = _ := group
  rw [place_append, Nat.zero_add] at whole
  obtain ⟨first, between, rest, rfl, run_before, run⟩ := whole.of_append
  cases run with
  | cons step run =>
      cases step
      obtain ⟨out, rest, rfl, parts, source, run_later⟩ :=
        @Stack.exists_segmentwise [] _ _ _ _ _ _ _ _ _ rfl run rfl (by simpa using balanced.nonneg)
          (by simpa using balanced.closed)
      obtain ⟨results, all, output⟩ := parts.exists_ofTokens
      have kept := Stack.close_append ⟨.symbol (.opening opening), before.length⟩ between
      generalize closed : Stack.close (⟨.symbol (.opening opening), before.length⟩ :: between) =
        move at run_later kept ⊢
      obtain ⟨called, left⟩ := move
      dsimp only at run_later kept ⊢
      refine ⟨first, out, called ++ rest ++ after, results, by simp, ?_, ?_, all, output, ?_⟩
      · intro p mem
        have inside := (source p mem).resolve_left List.not_mem_nil
        have lower := start_le_of_mem_place inside
        have upper := index_lt_of_mem_place inside
        omega
      · intro p mem
        have outside : p.index < before.length ∨ before.length + 1 + body.length + 1 ≤ p.index := by
          -- What waits below the bracket comes out later, but was read before it.
          by_cases read_before : p ∈ first ++ between
          · exact Or.inl (run_before.index_lt p read_before)
          · right
            have waits_or_read := run_later.mem p (by grind)
            exact start_le_of_mem_place (waits_or_read.resolve_left (by grind))
        omega
      · rintro start f rfl positive
        obtain ⟨below, rfl⟩ := run_before.top_function positive
        rw [Stack.close_call rfl] at closed
        cases closed
        rfl

/-- The arguments of `sin(3-sin(4,5)!,6*7)`. -/
def nestedArguments : Arguments :=
  .more ((Formula.ofNat 3).difference
      (Formula.sine (.more (Formula.ofNat 4) "," (.last (Formula.ofNat 5)))).factorial) ","
    (.last ((Formula.ofNat 6).product (Formula.ofNat 7)))

/-- The outer group in `2^sin(3-sin(4,5)!,6*7)-8` has two segments, and only the second divider cuts
it. -/
theorem output_of_group_nested :
    Balanced nestedArguments.listing ∧ (segments 0 nestedArguments.listing).length = 2 ∧
    ∃ r, Reordering.ofExpression .standard "2^sin(3-sin(4,5)!,6*7)-8" = .ok r ∧
      ∃ front block back results, r.output.toList = front ++ block ++ back ∧
        (∀ p ∈ block, 3 < p.index ∧ p.index < 4 + nestedArguments.listing.length) ∧
        List.Forall₂ (fun segment result => Reordering.ofTokens segment = .ok result)
          (segments 0 nestedArguments.listing) results ∧
        block.map PlacedToken.token = results.flatMap Reordering.postorder ∧
        back.head? = some ⟨.symbol (.function .sine), 2⟩ := by
  have balanced : Balanced nestedArguments.listing := by decide
  have read : (Reordering.ofExpression .standard "2^sin(3-sin(4,5)!,6*7)-8").map
      (fun r => r.read.toList) = .ok (((Formula.ofNat 2).listing ++
        [.symbol (.operator .power), .symbol (.function .sine)]) ++ .symbol (.opening "(") ::
          (nestedArguments.listing ++ .symbol (.closing ")") ::
            .symbol (.operator .minus) :: (Formula.ofNat 8).listing)) := by
    decide +kernel
  refine ⟨balanced, rfl, ?_⟩
  cases reordered : Reordering.ofExpression .standard "2^sin(3-sin(4,5)!,6*7)-8" with
  | error e =>
      rw [reordered] at read
      cases read
  | ok r =>
      rw [reordered] at read
      obtain ⟨-, front, block, back, results, output, inside, -, all, parts, call⟩ :=
        output_of_group reordered (Except.ok.inj read) balanced
      have sine :=
        call ((Formula.ofNat 2).listing ++ [Token.symbol (.operator .power)]) .sine rfl rfl
      exact ⟨r, rfl, front, block, back, results, output, inside, all, parts, sine⟩

end ReversePolish

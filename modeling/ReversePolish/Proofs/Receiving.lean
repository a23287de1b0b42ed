import ReversePolish.Proofs.Depth
import ReversePolish.Proofs.Reading

/-! # Receiving a list of tokens

`ofTokens` brings tokens that have been read already into postfix order.  On the tokens of an
expression it does what is done while the expression is read (`ofExpression_of_tokenize`), so the
outcome on an expression without an error of reading depends on its tokens only.

Before an error of reading is met, the tokens before it are received (`ofExpression_of_fault`).  So
pulling tokens one by one and collecting them first differ only where one of those tokens is refused
(`ofExpression_agrees_tokenize`). -/

namespace ReversePolish.Reordering

/-- Tokens by themselves are brought into postfix order. -/
def ofTokens (tokens : List Token) : Except StructureError Reordering :=
  match empty.pushAll tokens with
  | .ok r => r.finish
  | .error e => .error e

/-- What is left of an expression is received up to the error that ends it, or else to the end. -/
theorem ofExpression_of_reads {table : SymbolTable} {expression : String} {tokens : List Token}
    {fault : Option ScanError} (reads : (Scanner.ofText expression).Reads table tokens fault) :
    ofExpression table expression =
      match empty.pushAll tokens with
      | .error e => .error (.structural e)
      | .ok r => fault.elim (r.finish.mapError .structural) fun e => .error (.scan e) := by
  unfold ofExpression
  rw [run_eq_of_reads reads empty]
  cases empty.pushAll tokens with
  | error e => rfl
  | ok r =>
      cases fault with
      | some e => rfl
      | none =>
          dsimp only [Option.elim]
          cases r.finish <;> rfl

theorem ofExpression_of_tokenize {table : SymbolTable} {expression : String} {tokens : List Token}
    (tokenized : tokenize table expression = .ok tokens) :
    ofExpression table expression = (ofTokens tokens).mapError .structural := by
  rw [ofExpression_of_reads (tokenize_eq_ok_iff.mp tokenized)]
  unfold ofTokens
  cases empty.pushAll tokens <;> rfl

theorem pushAll_of_refused {r : Reordering} {front back : List Token} {token : Token}
    {sent : List PlacedToken} {after : Stack} {e : StructureError}
    (run : r.stack.Run (place r.read.size front) sent after)
    (refused : after.receive ⟨token, r.read.size + front.length⟩ = .error e) :
    r.pushAll (front ++ token :: back) = .error e := by
  have front_eq := pushAll_of_run run
  unfold pushAll at front_eq ⊢
  rw [List.foldlM_append, front_eq]
  refine pushAll_cons_of_error ?_ back
  have size : (r.read ++ front).size = r.read.size + front.length := by
    rw [← Array.length_toList, Array.toList_appendList, List.length_append, Array.length_toList]
  unfold push
  rw [size, refused]

theorem ofTokens_of_run {tokens : List Token} {sent : List PlacedToken} {after : Stack}
    (run : Stack.Run [] (place 0 tokens) sent after) (closed : ∀ p ∈ after, p.isOpening = false) :
    ofTokens tokens = .ok ⟨tokens.toArray, [], (sent ++ after).toArray⟩ := by
  have received := pushAll_of_run (r := empty) run
  unfold ofTokens
  rw [received]
  dsimp only
  rw [finish_of_closed closed]
  simp [empty]

/-! ### Refused tokens -/

theorem kind_of_refused {stack : Stack} {p : PlacedToken} {e : StructureError}
    (refused : stack.receive p = .error e) :
    (p.token.isDivider = true ∧ e = .strayDivider p.index) ∨
      (p.token.isClosing = true ∧ e = .unmatchedClosing p.index) := by
  obtain ⟨token, index⟩ := p
  unfold Stack.receive at refused
  rcases token with _ | (f | _ | _ | _ | _) <;> dsimp only at refused
  case number => cases refused
  case symbol.function => split at refused <;> cases refused
  case symbol.operator => cases refused
  case symbol.opening => cases refused
  case symbol.closing =>
    split at refused
    · cases refused
    · exact Or.inr ⟨rfl, (Except.error.inj refused).symm⟩
  case symbol.divider =>
    split at refused
    · cases refused
    · exact Or.inl ⟨rfl, (Except.error.inj refused).symm⟩

theorem refused_of_push {r : Reordering} {token : Token} {e : StructureError}
    (h : r.push token = .error e) : r.stack.receive ⟨token, r.read.size⟩ = .error e := by
  unfold push at h
  split at h
  · cases h
  · next refused => rw [refused, Except.error.inj h]

/-- Where the receiving of tokens ends with an error, one of them is refused by the stack that the
tokens before it leave. -/
theorem exists_refused_of_pushAll {r : Reordering} {tokens : List Token} {e : StructureError}
    (h : r.pushAll tokens = .error e) :
    ∃ front token back sent after, tokens = front ++ token :: back ∧
      r.stack.Run (place r.read.size front) sent after ∧
        after.receive ⟨token, r.read.size + front.length⟩ = .error e := by
  induction tokens generalizing r with
  | nil => cases h
  | cons token tokens ih =>
      cases pushed : r.push token with
      | error e' =>
          rw [pushAll_cons_of_error pushed] at h
          obtain rfl := Except.error.inj h
          exact ⟨[], token, tokens, [], r.stack, rfl, .nil, refused_of_push pushed⟩
      | ok next =>
          rw [pushAll_cons_of_ok pushed] at h
          obtain ⟨first, step, read_next, -⟩ := step_of_push pushed
          obtain ⟨front, other, back, sent, after, rfl, run, refused⟩ := ih h
          have size : next.read.size = r.read.size + 1 := by
            rw [read_next, Array.size_push]
          rw [size] at run refused
          refine ⟨token :: front, other, back, first ++ sent, after, rfl, .cons step run, ?_⟩
          rwa [List.length_cons, Nat.add_comm front.length 1, ← Nat.add_assoc]

theorem exists_index_of_pushAll {tokens : List Token} {e : StructureError}
    (h : empty.pushAll tokens = .error e) :
    ∃ i < tokens.length, e = .strayDivider i ∨ e = .unmatchedClosing i := by
  obtain ⟨front, token, back, sent, after, rfl, -, refused⟩ := exists_refused_of_pushAll h
  have index : empty.read.size + front.length = front.length := Nat.zero_add _
  rw [index] at refused
  refine ⟨front.length, by simp, ?_⟩
  rcases kind_of_refused refused with ⟨-, stray⟩ | ⟨-, unmatched⟩
  · exact Or.inl stray
  · exact Or.inr unmatched

/-! ### Errors of reading -/

variable {table : SymbolTable} {expression : String} {tokens : List Token}

theorem exists_reads_of_fault {x : ScanError} (h : tokenize table expression = .error x) :
    ∃ tokens, (Scanner.ofText expression).Reads table tokens (some x) := by
  obtain ⟨tokens, fault, reads⟩ := Scanner.exists_reads table (Scanner.ofText expression)
  unfold tokenize at h
  rw [Scanner.tokens_eq_of_reads reads rfl] at h
  cases fault with
  | none => cases h
  | some e =>
      obtain rfl := Except.error.inj h
      exact ⟨tokens, reads⟩

theorem ofExpression_of_fault {x : ScanError}
    (reads : (Scanner.ofText expression).Reads table tokens (some x)) :
    ofExpression table expression =
      match empty.pushAll tokens with
      | .error e => .error (.structural e)
      | .ok _ => .error (.scan x) := by
  rw [ofExpression_of_reads reads]
  cases empty.pushAll tokens <;> rfl

theorem ofExpression_ne_scan (tokenized : tokenize table expression = .ok tokens) (x : ScanError) :
    ofExpression table expression ≠ .error (.scan x) := by
  rw [ofExpression_of_tokenize tokenized]
  cases ofTokens tokens <;> exact fun h => by cases h

theorem parse_of_error {e : ReorderingError} (h : ofExpression table expression = .error e) :
    parse table expression = .error (.reordering e) := by
  unfold parse
  rw [h]

/-- The loop that pulls tokens one by one meets the tokens of an expression and the error of reading
that ends them, but a divider or a closing bracket before that error may stop it earlier. -/
theorem ofExpression_agrees_tokenize (table : SymbolTable) (expression : String) :
    (∀ tokens, tokenize table expression = .ok tokens →
      (∀ x, ofExpression table expression ≠ .error (.scan x)) ∧
        ∀ r, ofExpression table expression = .ok r → r.read.toList = tokens) ∧
    ∀ x, tokenize table expression = .error x →
      (ofExpression table expression = .error (.scan x) ∨
        ∃ i < ((Scanner.ofText expression).tokens table).1.length,
          ofExpression table expression = .error (.structural (.strayDivider i)) ∨
            ofExpression table expression = .error (.structural (.unmatchedClosing i))) ∧
      (∀ output, parse table expression ≠ .ok output) ∧
        ∀ p, parse table expression ≠ .error (.misplaced p) := by
  refine ⟨fun tokens tokenized => ⟨ofExpression_ne_scan tokenized, ?_⟩, fun x failed => ?_⟩
  · intro r h
    obtain ⟨tokens', sent, after, tokenized', -, -, rfl⟩ := ofExpression_eq_ok_iff.mp h
    obtain rfl := Except.ok.inj (tokenized.symm.trans tokenized')
    rfl
  · obtain ⟨tokens, reads⟩ := exists_reads_of_fault failed
    have outcome := ofExpression_of_fault reads
    have yielded : ((Scanner.ofText expression).tokens table).1 = tokens := by
      rw [Scanner.tokens_eq_of_reads reads rfl]
    cases received : empty.pushAll tokens with
    | ok r =>
        rw [received] at outcome
        have parse_eq := parse_of_error outcome
        exact ⟨Or.inl outcome, by simp [parse_eq], by simp [parse_eq]⟩
    | error e =>
        rw [received] at outcome
        have parse_eq := parse_of_error outcome
        obtain ⟨i, inside, stopped⟩ := exists_index_of_pushAll received
        refine ⟨Or.inr ⟨i, by rwa [yielded], ?_⟩, by simp [parse_eq], by simp [parse_eq]⟩
        rcases stopped with rfl | rfl
        · exact Or.inl outcome
        · exact Or.inr outcome

/-- In `(1)),2 3` the second closing bracket is met before the `3`, which is no symbol. -/
theorem ofExpression_agrees_tokenize_stray :
    (tokenize .standard "(1)),2 3" = .error (.unrecognized "3" 7) ∧
      ∃ i < ((Scanner.ofText "(1)),2 3").tokens .standard).1.length,
        ofExpression .standard "(1)),2 3" = .error (.structural (.strayDivider i)) ∨
          ofExpression .standard "(1)),2 3" = .error (.structural (.unmatchedClosing i))) ∧
    ∃ tokens r, tokenize .standard "sin(1,-2)" = .ok tokens ∧
      ofExpression .standard "sin(1,-2)" = .ok r ∧ r.read.toList = tokens := by
  constructor
  · have failed : tokenize .standard "(1)),2 3" = .error (.unrecognized "3" 7) := by
      decide +kernel
    have parse_eq : parse .standard "(1)),2 3" =
        .error (.reordering (.structural (.unmatchedClosing 3))) := by
      decide +kernel
    obtain ⟨outcome, -⟩ := (ofExpression_agrees_tokenize .standard "(1)),2 3").2 _ failed
    refine ⟨failed, outcome.resolve_left fun met => ?_⟩
    rw [parse_of_error met] at parse_eq
    cases parse_eq
  · have received : (ofExpression .standard "sin(1,-2)").isOk = true := by
      decide +kernel
    obtain ⟨r, reordered⟩ := exists_of_isOk received
    obtain ⟨tokens, -, -, tokenized, -⟩ := ofExpression_eq_ok_iff.mp reordered
    obtain ⟨-, read_eq⟩ := (ofExpression_agrees_tokenize _ _).1 tokens tokenized
    exact ⟨tokens, r, tokenized, reordered, read_eq r reordered⟩

end ReversePolish.Reordering

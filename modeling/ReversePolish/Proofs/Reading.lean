import ReversePolish.Conversion
import ReversePolish.Proofs.Stack

/-! # Reading whole expressions

The loop that brings an expression into postfix order pulls its tokens one by one; `tokenize`
collects them first.  `Scanner.Reads` is what both see: the tokens that are left of an expression
and the error that ends them.  So the outcome on an expression is that of a run of the stack over
its tokens (`ofExpression_eq_ok_iff`), and parsing adds only the check of neighbours
(`parse_of_run`, `parse_eq_ok_iff`).

What a scanner remembers of the tokens it has read is the last one.  So a number is the first token
or comes right after one that accepts a number (`acceptsNumber_of_tokenize`). -/

namespace ReversePolish

theorem exists_of_isOk {ε α : Type} {x : Except ε α} (h : x.isOk = true) : ∃ a, x = .ok a := by
  cases x with
  | error e => cases h
  | ok a => exact ⟨a, rfl⟩

/-! ### Single readings -/

namespace Lexeme

theorem result_symbol (table : SymbolTable) (offset : Nat) (text rest : List Char) :
    (∃ s, (symbol table offset text rest).result = .ok (.symbol s)) ∨
      ∃ grown, (symbol table offset text rest).result = .error (.unrecognized grown offset) := by
  induction rest generalizing text with
  | nil =>
      rw [symbol]
      split <;> simp
  | cons c rest ih =>
      rw [symbol]
      split
      · simp
      · split
        · simp
        · exact ih _

theorem acceptsNumber_of_scan {table : SymbolTable} {previous : Option Token} {offset : Nat}
    {first : Char} {rest : List Char} {literal : String} {value : Numeral.Binary64}
    (h : (scan table previous offset first rest).result = .ok (.number literal value)) :
    previous.all Token.acceptsNumber = true := by
  rw [scan] at h
  split at h
  · next starts =>
    simp only [startsNumber, Bool.and_eq_true] at starts
    exact starts.1.2
  · rcases result_symbol table offset [first] rest with ⟨s, found⟩ | ⟨grown, missed⟩ <;> simp_all

end Lexeme

namespace Scanner

variable {table : SymbolTable} {s after : Scanner}

theorem state_of_read {token : Token} (h : s.read table = (.ok token, after)) :
    after.previous = some token ∧ after.failed = s.failed := by
  simp only [read] at h
  split at h
  · cases h
  · split at h
    · obtain ⟨eq, rfl⟩ := Prod.mk.inj h
      exact ⟨congrArg some (Except.ok.inj eq), rfl⟩
    · cases h

theorem acceptsNumber_of_read {literal : String} {value : Numeral.Binary64}
    (h : s.read table = (.ok (.number literal value), after)) :
    s.previous.all Token.acceptsNumber = true := by
  simp only [read] at h
  split at h
  · cases h
  · split at h
    · next eq =>
      obtain ⟨rfl⟩ := Except.ok.inj (Prod.mk.inj h).1
      exact Lexeme.acceptsNumber_of_scan eq
    · cases h

theorem next?_of_done (running : s.failed = false) (ended : s.skipBlanks.rest = []) :
    s.next? table = (none, s.skipBlanks) := by
  rw [next?, running, if_neg Bool.false_ne_true, if_pos ended]

theorem next?_of_fault {e : ScanError} (running : s.failed = false) (more : s.skipBlanks.rest ≠ [])
    (h : s.read table = (.error e, after)) :
    s.next? table = (some (.error e), { after with failed := true }) := by
  rw [next?, running, if_neg Bool.false_ne_true, if_neg more, read_skipBlanks, h]

theorem next?_of_token {token : Token} (running : s.failed = false) (more : s.skipBlanks.rest ≠ [])
    (h : s.read table = (.ok token, after)) : s.next? table = (some (.ok token), after) := by
  rw [next?, running, if_neg Bool.false_ne_true, if_neg more, read_skipBlanks, h]

/-! ### All that is left of an expression -/

/-- The tokens that are left of an expression, and the error that ends them if there is one. -/
inductive Reads (table : SymbolTable) : Scanner → List Token → Option ScanError → Prop
  | done {s : Scanner} : s.skipBlanks.rest = [] → Reads table s [] none
  | fault {s after : Scanner} {e : ScanError} : s.skipBlanks.rest ≠ [] →
      s.read table = (.error e, after) → Reads table s [] (some e)
  | token {s after : Scanner} {token : Token} {tokens : List Token} {fault : Option ScanError} :
      s.skipBlanks.rest ≠ [] → s.read table = (.ok token, after) →
      Reads table after tokens fault → Reads table s (token :: tokens) fault

theorem tokens_eq_of_reads {tokens : List Token} {fault : Option ScanError}
    (h : Reads table s tokens fault) (running : s.failed = false) :
    s.tokens table = (tokens, fault) := by
  induction h with
  | done ended =>
      have next_eq := @next?_of_done table _ running ended
      rw [Scanner.tokens]
      split <;> simp_all
  | fault more read_eq =>
      have next_eq := next?_of_fault running more read_eq
      rw [Scanner.tokens]
      split <;> simp_all
  | token more read_eq _ ih =>
      have next_eq := next?_of_token running more read_eq
      have later := ih ((state_of_read read_eq).2.trans running)
      rw [Scanner.tokens]
      split <;> simp_all

theorem exists_reads (table : SymbolTable) (s : Scanner) :
    ∃ tokens fault, Reads table s tokens fault := by
  by_cases more : s.skipBlanks.rest = []
  · exact ⟨[], none, Reads.done more⟩
  · rcases read_eq : s.read table with ⟨e | token, after⟩
    · exact ⟨[], some e, Reads.fault more read_eq⟩
    · obtain ⟨tokens, fault, later⟩ := exists_reads table after
      exact ⟨token :: tokens, fault, Reads.token more read_eq later⟩
termination_by s.rest.length
decreasing_by
  have := length_rest_read_lt table more
  rwa [read_eq] at this

/-- A number that is read comes right after a token that accepts one, counting the token that the
scanner remembers. -/
theorem Reads.acceptsNumber {before rest : List Token} {fault : Option ScanError}
    {literal : String} {value : Numeral.Binary64}
    (h : Reads table s (before ++ .number literal value :: rest) fault) :
    (before.getLast?.or s.previous).all Token.acceptsNumber = true := by
  generalize eq : before ++ .number literal value :: rest = tokens at h
  induction h generalizing before with
  | done => simp at eq
  | fault => simp at eq
  | @token s after token tokens _ _ read_eq _ ih =>
      cases before with
      | nil =>
          obtain ⟨rfl, rfl⟩ := List.cons.inj eq
          exact acceptsNumber_of_read read_eq
      | cons first before =>
          obtain ⟨rfl, tail_eq⟩ := List.cons.inj eq
          have later := ih tail_eq
          rw [(state_of_read read_eq).1] at later
          rw [List.getLast?_cons]
          cases last : before.getLast? <;> simp_all

end Scanner

/-! ### Whole expressions -/

variable {table : SymbolTable} {expression : String} {tokens : List Token}

theorem tokenize_eq_ok_iff :
    tokenize table expression = .ok tokens ↔
      Scanner.Reads table (Scanner.ofText expression) tokens none := by
  obtain ⟨read, fault, reads⟩ := Scanner.exists_reads table (Scanner.ofText expression)
  have eq := Scanner.tokens_eq_of_reads reads rfl
  unfold tokenize
  rw [eq]
  constructor
  · intro h
    cases fault with
    | none => rwa [← Except.ok.inj h]
    | some e => cases h
  · intro h
    have eq' := Scanner.tokens_eq_of_reads h rfl
    obtain ⟨rfl, rfl⟩ := Prod.mk.inj (eq.symm.trans eq')
    rfl

theorem acceptsNumber_of_tokenize {before rest : List Token} {previous : Token} {literal : String}
    {value : Numeral.Binary64}
    (h : tokenize table expression = .ok (before ++ previous :: .number literal value :: rest)) :
    previous.acceptsNumber = true := by
  rw [← List.singleton_append, ← List.append_assoc, tokenize_eq_ok_iff] at h
  simpa using h.acceptsNumber

namespace Reordering

theorem appendList_append {α : Type} (xs : Array α) (l l' : List α) :
    xs ++ (l ++ l') = xs ++ l ++ l' :=
  Array.ext' (by simp)

theorem push_of_step {r : Reordering} {token : Token} {sent : List PlacedToken} {after : Stack}
    (h : r.stack.Step ⟨token, r.read.size⟩ sent after) :
    r.push token = .ok ⟨r.read.push token, after, r.output ++ sent⟩ := by
  rw [push, Stack.receive_of_step h]

theorem step_of_push {r next : Reordering} {token : Token} (h : r.push token = .ok next) :
    ∃ sent, r.stack.Step ⟨token, r.read.size⟩ sent next.stack ∧
      next.read = r.read.push token ∧ next.output = r.output ++ sent := by
  unfold push at h
  split at h
  · next move eq =>
    obtain rfl := Except.ok.inj h
    exact ⟨move.sent, Stack.step_of_receive eq, rfl, rfl⟩
  · cases h

/-- Tokens are received one after another, up to the first error. -/
def pushAll (r : Reordering) (tokens : List Token) : Except StructureError Reordering :=
  tokens.foldlM push r

theorem pushAll_cons_of_ok {r next : Reordering} {token : Token} (h : r.push token = .ok next)
    (tokens : List Token) : r.pushAll (token :: tokens) = next.pushAll tokens := by
  rw [pushAll, List.foldlM_cons, h]
  rfl

theorem pushAll_cons_of_error {r : Reordering} {token : Token} {e : StructureError}
    (h : r.push token = .error e) (tokens : List Token) :
    r.pushAll (token :: tokens) = .error e := by
  rw [pushAll, List.foldlM_cons, h]
  rfl

theorem pushAll_of_run {r : Reordering} {sent : List PlacedToken} {after : Stack}
    (run : r.stack.Run (place r.read.size tokens) sent after) :
    r.pushAll tokens = .ok ⟨r.read ++ tokens, after, r.output ++ sent⟩ := by
  induction tokens generalizing r sent with
  | nil =>
      cases run
      simp [pushAll, pure, Except.pure]
  | cons token tokens ih =>
      cases run with
      | @cons _ between _ _ _ first later step rest =>
          have size : (r.read.push token).size = r.read.size + 1 := Array.size_push ..
          rw [← size] at rest
          have later_eq := ih (r := ⟨r.read.push token, between, r.output ++ first⟩) rest
          rw [pushAll_cons_of_ok (push_of_step step), later_eq, ← appendList_append]
          simp

/-- The loop receives the tokens that are left.  An error of structure stops it before it gets to an
error of reading. -/
theorem run_eq_of_reads {s : Scanner} {fault : Option ScanError}
    (reads : s.Reads table tokens fault) (r : Reordering) :
    r.run table s =
      match r.pushAll tokens with
      | .error e => .error (.structural e)
      | .ok done => fault.elim (.ok done) fun e => .error (.scan e) := by
  induction reads generalizing r with
  | done ended =>
      rw [Reordering.run, dif_pos ended]
      rfl
  | fault more read_eq =>
      rw [Reordering.run, dif_neg more]
      split <;> simp_all [pushAll, pure, Except.pure]
  | @token s after token tokens _ more read_eq _ ih =>
      rw [Reordering.run, dif_neg more]
      split
      · simp_all
      · next read_eq' =>
        obtain ⟨token_eq, rfl⟩ := Prod.mk.inj (read_eq.symm.trans read_eq')
        obtain rfl := Except.ok.inj token_eq
        cases pushed : r.push token with
        | error e => rw [pushAll_cons_of_error pushed]
        | ok next =>
            rw [pushAll_cons_of_ok pushed]
            exact ih next

/-- If the tokens that are left can be received, only an error of reading can stop the loop. -/
theorem run_of_reads {s : Scanner} {fault : Option ScanError} {r : Reordering}
    {sent : List PlacedToken} {after : Stack} (reads : s.Reads table tokens fault)
    (run : r.stack.Run (place r.read.size tokens) sent after) :
    r.run table s =
      fault.elim (.ok ⟨r.read ++ tokens, after, r.output ++ sent⟩) fun e => .error (.scan e) := by
  rw [run_eq_of_reads reads r, pushAll_of_run run]

theorem exists_run_of_ok {s : Scanner} {r done : Reordering} (h : r.run table s = .ok done) :
    ∃ tokens sent, s.Reads table tokens none ∧
      r.stack.Run (place r.read.size tokens) sent done.stack ∧
      done.read = r.read ++ tokens ∧ done.output = r.output ++ sent := by
  fun_induction Reordering.run table s r with
  | case1 s r ended =>
      obtain rfl := Except.ok.inj h
      exact ⟨[], [], .done ended, .nil, by simp, by simp⟩
  | case2 => cases h
  | case3 => cases h
  | case4 s r more token after read_eq next push_eq ih =>
      obtain ⟨first, step, read_next, output_next⟩ := step_of_push push_eq
      obtain ⟨tokens, later, reads, run, read_done, output_done⟩ := ih h
      have size : next.read.size = r.read.size + 1 := by simp [read_next]
      rw [size] at run
      refine ⟨token :: tokens, first ++ later, .token more read_eq reads, .cons step run, ?_, ?_⟩
      · simp [read_done, read_next]
      · rw [output_done, output_next, appendList_append]

theorem finish_of_closed {r : Reordering} (closed : ∀ p ∈ r.stack, p.isOpening = false) :
    r.finish = .ok ⟨r.read, [], r.output ++ r.stack⟩ := by
  unfold finish
  rw [if_neg (by simpa using closed)]

theorem closed_of_finish {r done : Reordering} (h : r.finish = .ok done) :
    ∀ p ∈ r.stack, p.isOpening = false := by
  unfold finish at h
  split at h
  · cases h
  · next closed => simpa using closed

/-- Bringing an expression into postfix order is receiving its tokens from the empty stack, where
no open bracket may be left. -/
theorem ofExpression_eq_ok_iff {r : Reordering} :
    ofExpression table expression = .ok r ↔ ∃ tokens sent after,
      tokenize table expression = .ok tokens ∧ Stack.Run [] (place 0 tokens) sent after ∧
        (∀ p ∈ after, p.isOpening = false) ∧ r = ⟨tokens.toArray, [], (sent ++ after).toArray⟩ := by
  constructor
  · intro h
    unfold ofExpression at h
    split at h
    · cases h
    · next read eq =>
      obtain ⟨tokens, sent, reads, run, read_eq, output_eq⟩ := exists_run_of_ok eq
      split at h
      · cases h
      · next finished =>
        obtain rfl := Except.ok.inj h
        have closed := closed_of_finish finished
        obtain rfl := Except.ok.inj (finished.symm.trans (finish_of_closed closed))
        refine ⟨tokens, sent, read.stack, tokenize_eq_ok_iff.mpr reads, run, closed, ?_⟩
        rw [read_eq, output_eq, ← appendList_append]
        simp [empty]
  · rintro ⟨tokens, sent, after, tokenized, run, closed, rfl⟩
    have read := run_of_reads (r := empty) (tokenize_eq_ok_iff.mp tokenized) run
    unfold ofExpression
    rw [read]
    dsimp only [Option.elim]
    rw [finish_of_closed closed]
    dsimp only
    rw [← appendList_append]
    simp [empty]

end Reordering

theorem parse_of_run {sent : List PlacedToken} {after : Stack}
    (tokenized : tokenize table expression = .ok tokens)
    (run : Stack.Run [] (place 0 tokens) sent after) (closed : ∀ p ∈ after, p.isOpening = false) :
    parse table expression =
      (Adjacency.firstMisplaced? tokens).elim (.ok ((sent ++ after).map PlacedToken.token))
        fun p => .error (.misplaced p) := by
  have reordered := Reordering.ofExpression_eq_ok_iff.mpr
    ⟨tokens, sent, after, tokenized, run, closed, rfl⟩
  unfold parse
  rw [reordered]
  dsimp only
  split
  · next p misplaced => rw [misplaced, Option.elim]
  · next fitting => rw [fitting, Option.elim, Reordering.postorder]

theorem exists_parse_eq_ok_iff_of_run {sent : List PlacedToken} {after : Stack}
    (tokenized : tokenize table expression = .ok tokens)
    (run : Stack.Run [] (place 0 tokens) sent after) (closed : ∀ p ∈ after, p.isOpening = false) :
    (∃ output, parse table expression = .ok output) ↔
      Adjacency.firstMisplaced? tokens = none := by
  rw [parse_of_run tokenized run closed]
  cases Adjacency.firstMisplaced? tokens with
  | none => exact iff_of_true ⟨_, rfl⟩ rfl
  | some p =>
      refine iff_of_false ?_ (Option.some_ne_none p)
      rintro ⟨output, accepted⟩
      cases accepted

theorem parse_eq_ok_iff {output : List Token} :
    parse table expression = .ok output ↔ ∃ tokens sent after,
      tokenize table expression = .ok tokens ∧ Stack.Run [] (place 0 tokens) sent after ∧
        (∀ p ∈ after, p.isOpening = false) ∧ Adjacency.firstMisplaced? tokens = none ∧
          output = (sent ++ after).map PlacedToken.token := by
  constructor
  · intro h
    have h' := h
    unfold parse at h
    split at h
    · cases h
    · next r reordered =>
      obtain ⟨tokens, sent, after, tokenized, run, closed, rfl⟩ :=
        Reordering.ofExpression_eq_ok_iff.mp reordered
      rw [parse_of_run tokenized run closed] at h'
      cases misplaced : Adjacency.firstMisplaced? tokens with
      | some p => simp [misplaced] at h'
      | none =>
          rw [misplaced] at h'
          exact ⟨tokens, sent, after, tokenized, run, closed, misplaced, (Except.ok.inj h').symm⟩
  · rintro ⟨tokens, sent, after, tokenized, run, closed, fitting, rfl⟩
    rw [parse_of_run tokenized run closed, fitting, Option.elim]

theorem exists_of_parse_misplaced {p : PlacedToken}
    (h : parse table expression = .error (.misplaced p)) :
    ∃ tokens, tokenize table expression = .ok tokens ∧
      Adjacency.firstMisplaced? tokens = some p := by
  unfold parse at h
  split at h
  · cases h
  · next r reordered =>
    obtain ⟨tokens, sent, after, tokenized, -, -, rfl⟩ :=
      Reordering.ofExpression_eq_ok_iff.mp reordered
    split at h
    · next q misplaced =>
      obtain rfl := ConversionError.misplaced.inj (Except.error.inj h)
      exact ⟨tokens, tokenized, misplaced⟩
    · cases h

end ReversePolish

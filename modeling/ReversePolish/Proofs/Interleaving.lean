import ReversePolish.Proofs.Reading

/-! # Scanners under any calls

A scanner is asked in three ways: to read a token, for the next token if there is one, and whether
there is one.  All three work on one state, and they may come in any order, also after errors, which
leave the scanner in the middle of an expression.  `SafeUnderCalls` lists what holds all the same,
and `safeUnderCalls` that it does.

* A call moves on by some characters that are left and never back (`Ahead`), so the scanner stands
  at a place of the expression after any calls (`At`).
* A scanner and the one past its blanks give the same answers (`answer_skipBlanks`), so asking
  whether there is a token is not observed later.
* Once `next?` has given no token it is `Spent`, and every call keeps it so. -/

namespace ReversePolish

/-! ### Reading ends at the end only -/

namespace Lexeme

theorem scan_ne_end (table : SymbolTable) (previous : Option Token) (offset : Nat) (first : Char)
    (rest : List Char) (n : Nat) :
    (scan table previous offset first rest).result ≠ .error (.endOfExpression n) := by
  rw [scan]
  split
  · rw [number]
    split <;> simp
  · rcases result_symbol table offset [first] rest with ⟨s, found⟩ | ⟨grown, missed⟩ <;> simp_all

end Lexeme

namespace Scanner

variable {table : SymbolTable} {expression : String} {s s' after : Scanner}

theorem read_of_ended (ended : s.skipBlanks.rest = []) :
    s.read table = (.error (.endOfExpression s.skipBlanks.cursor), s.skipBlanks) := by
  simp only [read, ended]

theorem ended_of_read {offset : Nat} (h : (s.read table).1 = .error (.endOfExpression offset)) :
    s.skipBlanks.rest = [] := by
  simp only [read] at h
  split at h
  · assumption
  · split at h
    · cases h
    · next e failed =>
      obtain rfl := Except.error.inj h
      exact absurd failed (Lexeme.scan_ne_end table s.skipBlanks.previous _ _ _ offset)

theorem blank_of_ended_iff : s.skipBlanks.rest = [] ↔ ∀ c ∈ s.rest, Text.isBlank c = true := by
  rw [rest_skipBlanks, List.dropWhile_eq_nil_iff]

/-! ### Calls -/

/-- What a scanner can be asked for. -/
inductive Call where
  | read
  | next
  | hasNext
deriving DecidableEq

/-- What a scanner answers. -/
inductive Answer where
  | read (result : Except ScanError Token)
  | next (result : Option (Except ScanError Token))
  | hasNext (more : Bool)

/-- The answer to a call, and the scanner after it. -/
def answer (table : SymbolTable) (s : Scanner) : Call → Answer × Scanner
  | .read => (s.read table).map .read id
  | .next => (s.next? table).map .next id
  | .hasNext => s.hasNext.map .hasNext id

/-- The scanner after calls one after another. -/
def afterCalls (table : SymbolTable) (s : Scanner) (calls : List Call) : Scanner :=
  calls.foldl (fun s call => (s.answer table call).2) s

/-- The answers to calls one after another. -/
def answers (table : SymbolTable) : Scanner → List Call → List Answer
  | _, [] => []
  | s, call :: calls => (s.answer table call).1 :: answers table (s.answer table call).2 calls

theorem afterCalls_append (table : SymbolTable) (s : Scanner) (calls calls' : List Call) :
    s.afterCalls table (calls ++ calls') = (s.afterCalls table calls).afterCalls table calls' :=
  List.foldl_append

theorem afterCalls_concat (table : SymbolTable) (s : Scanner) (calls : List Call) (call : Call) :
    s.afterCalls table (calls ++ [call]) = ((s.afterCalls table calls).answer table call).2 :=
  afterCalls_append table s calls [call]

/-! ### Where a scanner stands -/

/-- One scanner stands some characters further on than another. -/
def Ahead (s after : Scanner) : Prop :=
  ∃ count ≤ s.rest.length, after.cursor = s.cursor + count ∧ after.rest = s.rest.drop count

theorem Ahead.refl (s : Scanner) : s.Ahead s := ⟨0, Nat.zero_le _, rfl, rfl⟩

theorem Ahead.trans (h : s.Ahead s') (h' : s'.Ahead after) : s.Ahead after := by
  obtain ⟨count, inside, cursor_eq, rest_eq⟩ := h
  obtain ⟨count', inside', cursor_eq', rest_eq'⟩ := h'
  rw [rest_eq, List.length_drop] at inside'
  refine ⟨count + count', by omega, by omega, ?_⟩
  rw [rest_eq', rest_eq, List.drop_drop]

theorem ahead_skipBlanks (s : Scanner) : s.Ahead s.skipBlanks :=
  ⟨_, (List.takeWhile_sublist _).length_le, rfl, rfl⟩

theorem ahead_read (table : SymbolTable) (s : Scanner) : s.Ahead (s.read table).2 := by
  refine (ahead_skipBlanks s).trans ?_
  simp only [read]
  split
  · exact Ahead.refl _
  · next first rest left =>
    obtain ⟨more, behind, text_eq, rfl⟩ :=
      Lexeme.text_scan table s.skipBlanks.previous s.skipBlanks.cursor first rest
    have inside : (first :: more).length ≤ s.skipBlanks.rest.length := by
      rw [left]
      simp
    rw [text_eq]
    split <;> exact ⟨_, inside, rfl, rfl⟩

theorem ahead_next? (table : SymbolTable) (s : Scanner) : s.Ahead (s.next? table).2 := by
  rw [next?, read_skipBlanks]
  have read_ahead := ahead_read table s
  split
  · exact Ahead.refl s
  · split
    · exact ahead_skipBlanks s
    · split <;>
      · next read_eq =>
        rw [read_eq] at read_ahead
        exact read_ahead

theorem ahead_answer (table : SymbolTable) (s : Scanner) (call : Call) :
    s.Ahead (s.answer table call).2 := by
  cases call with
  | read => exact ahead_read table s
  | next => exact ahead_next? table s
  | hasNext => exact ahead_skipBlanks s

/-- A scanner stands at a place of an expression. -/
structure At (expression : String) (s : Scanner) : Prop where
  inside : s.cursor ≤ expression.length
  rest_eq : s.rest = expression.toList.drop s.cursor

theorem At.length_rest (h : s.At expression) : s.cursor + s.rest.length = expression.length := by
  have inside := h.inside
  rw [h.rest_eq, List.length_drop, String.length_toList]
  omega

theorem At.of_ahead (h : s.At expression) (ahead : s.Ahead after) : after.At expression := by
  obtain ⟨count, inside, cursor_eq, rest_eq⟩ := ahead
  have length_eq := h.length_rest
  refine ⟨by omega, ?_⟩
  rw [rest_eq, h.rest_eq, List.drop_drop, cursor_eq]

theorem at_afterCalls (table : SymbolTable) (h : s.At expression) (calls : List Call) :
    (s.afterCalls table calls).At expression := by
  induction calls generalizing s with
  | nil => exact h
  | cons call calls ih => exact ih (h.of_ahead (ahead_answer table s call))

/-! ### Asking whether there is a token -/

theorem failed_skipBlanks (s : Scanner) : s.skipBlanks.failed = s.failed := rfl

theorem hasNext_skipBlanks (s : Scanner) : s.skipBlanks.hasNext = s.hasNext := by
  rw [hasNext, hasNext, skipBlanks_skipBlanks]

/-- Past its blanks a scanner answers as before, and is left as before but for blanks. -/
theorem answer_skipBlanks (table : SymbolTable) (s : Scanner) (call : Call) :
    (s.skipBlanks.answer table call).1 = (s.answer table call).1 ∧
      (s.skipBlanks.answer table call).2.skipBlanks = (s.answer table call).2.skipBlanks := by
  cases call with
  | read =>
      have same : s.skipBlanks.answer table .read = s.answer table .read := by
        rw [answer, answer, read_skipBlanks]
      exact ⟨congrArg Prod.fst same, congrArg (fun p => skipBlanks p.2) same⟩
  | hasNext =>
      have same : s.skipBlanks.answer table .hasNext = s.answer table .hasNext := by
        rw [answer, answer, hasNext_skipBlanks]
      exact ⟨congrArg Prod.fst same, congrArg (fun p => skipBlanks p.2) same⟩
  | next =>
      by_cases failed : s.failed = true
      · -- A scanner that has failed stays where it is, before the blanks or past them.
        have stays {s : Scanner} (failed : s.failed = true) : s.next? table = (none, s) := by
          rw [next?, if_pos failed]
        rw [answer, answer, stays failed, stays ((failed_skipBlanks s).trans failed)]
        exact ⟨rfl, skipBlanks_skipBlanks s⟩
      · have same : s.skipBlanks.next? table = s.next? table := by
          rw [next?, next?, failed_skipBlanks, skipBlanks_skipBlanks, if_neg failed, if_neg failed]
        rw [answer, answer, same]
        exact ⟨rfl, rfl⟩

theorem answer_congr (same : s.skipBlanks = s'.skipBlanks) (call : Call) :
    (s.answer table call).1 = (s'.answer table call).1 ∧
      (s.answer table call).2.skipBlanks = (s'.answer table call).2.skipBlanks := by
  obtain ⟨answer_eq, after_eq⟩ := answer_skipBlanks table s call
  obtain ⟨answer_eq', after_eq'⟩ := answer_skipBlanks table s' call
  rw [← answer_eq, ← after_eq, same]
  exact ⟨answer_eq', after_eq'⟩

/-- The members of a list that are to be kept. -/
def kept {α : Type} (keep : List Bool) (l : List α) : List α :=
  ((l.zip keep).filter Prod.snd).map Prod.fst

/-- Without some of the questions whether there is a token, the other calls are answered alike. -/
theorem answers_kept (same : s.skipBlanks = s'.skipBlanks) {keep : List Bool} {calls : List Call}
    (dropped : ∀ p ∈ calls.zip keep, p.2 = false → p.1 = .hasNext) :
    answers table s (kept keep calls) = kept keep (answers table s' calls) := by
  induction calls generalizing s s' keep with
  | nil => simp [kept, answers]
  | cons call calls ih =>
      cases keep with
      | nil => simp [kept, answers]
      | cons stays keep =>
          have later : ∀ p ∈ calls.zip keep, p.2 = false → p.1 = .hasNext :=
            fun p mem => dropped p (by rw [List.zip_cons_cons]; exact List.mem_cons_of_mem _ mem)
          cases stays with
          | true =>
              obtain ⟨answer_eq, after_eq⟩ := @answer_congr table _ _ same call
              have rest_eq := ih after_eq later
              simpa [kept, answers, answer_eq] using rest_eq
          | false =>
              obtain rfl : call = .hasNext :=
                dropped (call, false) (by rw [List.zip_cons_cons]; exact List.mem_cons_self) rfl
              have probed : s.skipBlanks = (s'.answer table .hasNext).2.skipBlanks :=
                same.trans (skipBlanks_skipBlanks s').symm
              have rest_eq := ih probed later
              simpa [kept, answers] using rest_eq

/-! ### After the last token or an error -/

/-- No token will come from `next?`: it has met an error, or only blanks are left. -/
def Spent (s : Scanner) : Prop := s.failed = true ∨ s.skipBlanks.rest = []

theorem Spent.next?_eq_none (h : s.Spent) : (s.next? table).1 = none := by
  rw [next?]
  split
  · rfl
  · next running => rw [if_pos (h.resolve_left running)]

theorem spent_of_next? (h : ∀ token, (s.next? table).1 ≠ some (.ok token)) :
    (s.next? table).2.Spent := by
  rw [next?] at h ⊢
  split at h
  · next failed =>
    rw [if_pos failed]
    exact Or.inl failed
  · next running =>
    rw [if_neg running]
    split at h
    · next ended =>
      rw [if_pos ended]
      exact Or.inr (by rw [skipBlanks_skipBlanks, ended])
    · next more =>
      rw [if_neg more]
      split at h
      · next token after read_eq => exact absurd rfl (h token)
      · exact Or.inl rfl

theorem failed_read (table : SymbolTable) (s : Scanner) : (s.read table).2.failed = s.failed := by
  simp only [read]
  split
  · rfl
  · split <;> rfl

/-- Whatever is asked of a spent scanner, it stays spent. -/
theorem Spent.answer (h : s.Spent) (call : Call) : (s.answer table call).2.Spent := by
  cases call with
  | read =>
      rcases h with failed | ended
      · exact Or.inl ((failed_read table s).trans failed)
      · refine Or.inr ?_
        have read_eq := @read_of_ended table s ended
        rw [Scanner.answer, read_eq]
        exact (congrArg rest (skipBlanks_skipBlanks s)).trans ended
  | next =>
      refine @spent_of_next? table s fun token given => ?_
      rw [h.next?_eq_none] at given
      cases given
  | hasNext =>
      rcases h with failed | ended
      · exact Or.inl failed
      · exact Or.inr ((congrArg rest (skipBlanks_skipBlanks s)).trans ended)

theorem Spent.afterCalls (h : s.Spent) (calls : List Call) : (s.afterCalls table calls).Spent := by
  induction calls generalizing s with
  | nil => exact h
  | cons call calls ih => exact ih (h.answer call)

/-! ### All calls -/

/-- The scanner of an expression after some calls. -/
def reached (table : SymbolTable) (expression : String) (calls : List Call) : Scanner :=
  (ofText expression).afterCalls table calls

/-- What holds of the scanner of an expression whatever it is asked. -/
structure SafeUnderCalls (table : SymbolTable) (expression : String) : Prop where
  /-- The cursor never goes back. -/
  forward : ∀ calls call, (reached table expression calls).cursor ≤
    (reached table expression (calls ++ [call])).cursor
  /-- The cursor never leaves the expression. -/
  inside : ∀ calls, (reached table expression calls).cursor ≤ expression.length
  /-- Reading meets the end exactly where only blanks are left. -/
  ended_iff : ∀ calls,
    (∃ offset, ((reached table expression calls).read table).1 =
      .error (.endOfExpression offset)) ↔
    ∀ c ∈ expression.toList.drop (reached table expression calls).cursor, Text.isBlank c = true
  /-- The end is reported where it is. -/
  end_offset : ∀ calls offset,
    ((reached table expression calls).read table).1 = .error (.endOfExpression offset) →
      offset = expression.length
  /-- Reading moves on unless it meets the end, also when it fails. -/
  progress : ∀ calls,
    (∀ offset, ((reached table expression calls).read table).1 ≠
      .error (.endOfExpression offset)) →
    (reached table expression calls).cursor < (reached table expression (calls ++ [.read])).cursor
  /-- Without any of the questions whether there is a token, the other answers are the same. -/
  unobserved : ∀ (calls : List Call) (keep : List Bool),
    (∀ p ∈ calls.zip keep, p.2 = false → p.1 = .hasNext) →
    answers table (ofText expression) (kept keep calls) =
      kept keep (answers table (ofText expression) calls)
  /-- Once `next?` has given no token it gives nothing, whatever comes in between. -/
  fused : ∀ before between,
    (∀ token, ((reached table expression before).next? table).1 ≠ some (.ok token)) →
    ((reached table expression (before ++ .next :: between)).next? table).1 = none

theorem at_reached (table : SymbolTable) (expression : String) (calls : List Call) :
    (reached table expression calls).At expression :=
  at_afterCalls table ⟨Nat.zero_le _, rfl⟩ calls

theorem reached_concat (table : SymbolTable) (expression : String) (calls : List Call)
    (call : Call) : reached table expression (calls ++ [call]) =
      ((reached table expression calls).answer table call).2 :=
  afterCalls_concat table (ofText expression) calls call

theorem safeUnderCalls (table : SymbolTable) (expression : String) :
    SafeUnderCalls table expression where
  forward calls call := by
    obtain ⟨count, -, cursor_eq, -⟩ := ahead_answer table (reached table expression calls) call
    rw [reached_concat, cursor_eq]
    exact Nat.le_add_right _ _
  inside calls := (at_reached table expression calls).inside
  ended_iff calls := by
    rw [← (at_reached table expression calls).rest_eq, ← blank_of_ended_iff]
    constructor
    · rintro ⟨offset, met⟩
      exact ended_of_read met
    · intro ended
      rw [read_of_ended ended]
      exact ⟨_, rfl⟩
  end_offset calls offset met := by
    have place := at_reached table expression calls
    have ended := ended_of_read met
    rw [read_of_ended ended] at met
    obtain ⟨rfl⟩ := Except.error.inj met
    have length_eq := (place.of_ahead (ahead_skipBlanks _)).length_rest
    rwa [ended, List.length_nil, Nat.add_zero] at length_eq
  progress calls not_met := by
    have place := at_reached table expression calls
    have more : (reached table expression calls).skipBlanks.rest ≠ [] := by
      intro ended
      exact not_met _ (congrArg Prod.fst (read_of_ended ended))
    have shorter := length_rest_read_lt table more
    have length_eq := place.length_rest
    have length_eq' := (place.of_ahead (ahead_read table _)).length_rest
    rw [reached_concat]
    change _ < ((reached table expression calls).read table).2.cursor
    omega
  unobserved calls keep dropped := answers_kept rfl dropped
  fused before between none_given := by
    have spent : (reached table expression (before ++ .next :: between)).Spent := by
      rw [← List.singleton_append, ← List.append_assoc, reached, afterCalls_append]
      refine Spent.afterCalls ?_ between
      rw [afterCalls_concat]
      exact spent_of_next? none_given
    exact spent.next?_eq_none

/-- In `1 $ +2` nothing comes after the error at the dollar sign, although the plus sign is read
after it and the number is still there. -/
theorem safeUnderCalls_stray :
    (∀ token, ((reached .standard "1 $ +2" [.next, .hasNext]).next? .standard).1 ≠
      some (.ok token)) ∧
    ((reached .standard "1 $ +2" [.next, .hasNext, .next, .read, .hasNext]).next? .standard).1 =
      none ∧
    ((reached .standard "1 $ +2" [.next, .hasNext, .next, .read, .hasNext]).read .standard).1 =
      .ok (.ofValue (.ofRatio false 2 1)) := by
  have stray : ((reached .standard "1 $ +2" [.next, .hasNext]).next? .standard).1 =
      some (.error (.unrecognized "$" 2)) := by
    decide +kernel
  have none_given : ∀ token,
      ((reached .standard "1 $ +2" [.next, .hasNext]).next? .standard).1 ≠ some (.ok token) := by
    simp [stray]
  have number_left : ((reached .standard "1 $ +2"
      [.next, .hasNext, .next, .read, .hasNext]).read .standard).1 =
        .ok (.ofValue (.ofRatio false 2 1)) := by
    decide +kernel
  exact ⟨none_given,
    (safeUnderCalls .standard "1 $ +2").fused [.next, .hasNext] [.read, .hasNext] none_given,
    number_left⟩

end Scanner

end ReversePolish

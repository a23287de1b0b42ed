import Mathlib.Data.List.TakeWhile
import ReversePolish.Reordering

/-! # Steps and runs of the stack

`Step` lists what one token can do to a stack, with the shape that the stack must have, and
`receive_eq_ok_iff` says that `Stack.receive` does just that.  `Run` is what a list of tokens does
one after another; runs are composed with `Run.append`, and what is sent and the stack that is left
are determined by the tokens (`Run.unique`).  Facts on the stack are proved by cases on `Step` and
induction on `Run`, never by unfolding `receive`. -/

namespace ReversePolish

/-- Tokens in consecutive places, the first of which is `start`. -/
def place : Nat → List Token → List PlacedToken
  | _, [] => []
  | start, token :: tokens => ⟨token, start⟩ :: place (start + 1) tokens

theorem place_append (start : Nat) (tokens tokens' : List Token) :
    place start (tokens ++ tokens') =
      place start tokens ++ place (start + tokens.length) tokens' := by
  induction tokens generalizing start with
  | nil => simp [place]
  | cons token tokens ih =>
      have e : start + 1 + tokens.length = start + (tokens.length + 1) := by omega
      rw [List.cons_append, place, ih, place, List.length_cons, e, List.cons_append]

theorem start_le_of_mem_place {start : Nat} {tokens : List Token} {p : PlacedToken}
    (mem : p ∈ place start tokens) : start ≤ p.index := by
  induction tokens generalizing start with
  | nil => cases mem
  | cons a tokens ih =>
      rcases List.mem_cons.mp mem with rfl | mem
      · exact Nat.le_refl start
      · exact Nat.le_of_succ_le (ih mem)

theorem index_lt_of_mem_place {start : Nat} {tokens : List Token} {p : PlacedToken}
    (mem : p ∈ place start tokens) : p.index < start + tokens.length := by
  induction tokens generalizing start with
  | nil => cases mem
  | cons a tokens ih =>
      rw [List.length_cons]
      rcases List.mem_cons.mp mem with rfl | mem
      · dsimp only
        omega
      · have := ih mem
        omega

theorem token_mem_of_mem_place {start : Nat} {tokens : List Token} {p : PlacedToken}
    (mem : p ∈ place start tokens) : p.token ∈ tokens := by
  induction tokens generalizing start with
  | nil => cases mem
  | cons a tokens ih =>
      rcases List.mem_cons.mp mem with rfl | mem
      · exact List.mem_cons_self
      · exact List.mem_cons_of_mem a (ih mem)

theorem exists_append_of_mem_place {start : Nat} {tokens : List Token} {p : PlacedToken}
    (mem : p ∈ place start tokens) :
    ∃ front back, tokens = front ++ p.token :: back ∧ p.index = start + front.length := by
  induction tokens generalizing start with
  | nil => cases mem
  | cons a tokens ih =>
      rcases List.mem_cons.mp mem with rfl | mem
      · exact ⟨[], tokens, rfl, rfl⟩
      · obtain ⟨front, back, rfl, index_eq⟩ := ih mem
        refine ⟨a :: front, back, rfl, ?_⟩
        rw [index_eq, List.length_cons]
        omega

theorem pairwise_place (start : Nat) (tokens : List Token) :
    (place start tokens).Pairwise fun p q => p.index < q.index := by
  induction tokens generalizing start with
  | nil => exact List.Pairwise.nil
  | cons a tokens ih =>
      exact List.Pairwise.cons (fun q mem => start_le_of_mem_place mem) (ih (start + 1))

theorem nodup_place (start : Nat) (tokens : List Token) : (place start tokens).Nodup :=
  (pairwise_place start tokens).imp fun lower eq => by simp [eq] at lower

theorem exists_mem_place {tokens : List Token} {a : Token} (mem : a ∈ tokens) (start : Nat) :
    ∃ index, ⟨a, index⟩ ∈ place start tokens := by
  induction tokens generalizing start with
  | nil => cases mem
  | cons b tokens ih =>
      rcases List.mem_cons.mp mem with rfl | mem
      · exact ⟨start, List.mem_cons_self⟩
      · obtain ⟨index, later⟩ := ih mem (start + 1)
        exact ⟨index, List.mem_cons_of_mem _ later⟩

namespace Stack

/-! ### What one token does -/

/-- What a token sends from a stack to the output, and the stack that it leaves. -/
inductive Step : Stack → PlacedToken → List PlacedToken → Stack → Prop
  | number {stack literal value index} :
      Step stack ⟨.number literal value, index⟩ [⟨.number literal value, index⟩] stack
  | constant {stack f index} : f.isConstant = true →
      Step stack ⟨.symbol (.function f), index⟩ [⟨.symbol (.function f), index⟩] stack
  | function {stack f index} : f.isConstant = false →
      Step stack ⟨.symbol (.function f), index⟩ [] (⟨.symbol (.function f), index⟩ :: stack)
  | opening {stack literal index} :
      Step stack ⟨.symbol (.opening literal), index⟩ []
        (⟨.symbol (.opening literal), index⟩ :: stack)
  | operator {popped kept o index} : (∀ p ∈ popped, p.poppedBy o = true) →
      (∀ p ∈ kept.head?, p.poppedBy o = false) →
      Step (popped ++ kept) ⟨.symbol (.operator o), index⟩ popped
        (⟨.symbol (.operator o), index⟩ :: kept)
  | divider {operators opened below literal index} :
      (∀ p ∈ operators, p.isOperator = true) → opened.isOpening = true →
      Step (operators ++ opened :: below) ⟨.symbol (.divider literal), index⟩ operators
        (opened :: below)
  | closing {operators opened below literal index} :
      (∀ p ∈ operators, p.isOperator = true) → opened.isOpening = true →
      (∀ p ∈ below.head?, p.isFunction = false) →
      Step (operators ++ opened :: below) ⟨.symbol (.closing literal), index⟩ operators below
  | closingCall {operators opened called below literal index} :
      (∀ p ∈ operators, p.isOperator = true) → opened.isOpening = true →
      called.isFunction = true →
      Step (operators ++ opened :: called :: below) ⟨.symbol (.closing literal), index⟩
        (operators ++ [called]) below

/-! ### Kinds of waiting tokens -/

theorem isOperator_of_poppedBy {p : PlacedToken} {o : OperatorSymbol}
    (h : p.poppedBy o = true) : p.isOperator = true := by
  unfold PlacedToken.poppedBy at h
  unfold PlacedToken.isOperator
  split at h
  · rfl
  · cases h

theorem isOperator_eq_false_of_isOpening {p : PlacedToken} (h : p.isOpening = true) :
    p.isOperator = false := by
  obtain ⟨token, index⟩ := p
  rcases token with _ | (_ | _ | _ | _ | _)
  case symbol.opening => rfl
  all_goals cases h

theorem isOpening_eq_false_of_isOperator {p : PlacedToken} (h : p.isOperator = true) :
    p.isOpening = false := by
  by_contra opened
  rw [isOperator_eq_false_of_isOpening (by simpa using opened)] at h
  cases h

theorem poppedBy_eq_false_of_isOpening {p : PlacedToken} {o : OperatorSymbol}
    (h : p.isOpening = true) : p.poppedBy o = false := by
  by_contra popped
  have operator := isOperator_of_poppedBy (by simpa using popped)
  rw [isOperator_eq_false_of_isOpening h] at operator
  cases operator

/-! ### `receive` takes exactly the steps -/

theorem unwind?_append {operators below : Stack} {opened : PlacedToken}
    (all : ∀ p ∈ operators, p.isOperator = true) (hit : opened.isOpening = true) :
    unwind? (operators ++ opened :: below) = some ⟨operators, opened :: below⟩ := by
  have stop : ∀ p ∈ (opened :: below).head?, p.isOperator = false := by
    intro p mem
    obtain rfl : opened = p := by simpa using mem
    exact isOperator_eq_false_of_isOpening hit
  obtain ⟨take, drop⟩ := Text.takeWhile_dropWhile_append all stop
  simp [unwind?, take, drop, hit]

theorem exists_of_unwind?_eq_some {stack : Stack} {move : Move} (h : stack.unwind? = some move) :
    ∃ operators opened below, stack = operators ++ opened :: below ∧
      (∀ p ∈ operators, p.isOperator = true) ∧ opened.isOpening = true ∧
        move = ⟨operators, opened :: below⟩ := by
  unfold unwind? at h
  dsimp only at h
  split at h
  · next hit =>
    cases left : stack.dropWhile PlacedToken.isOperator with
    | nil => simp [left] at hit
    | cons opened below =>
        refine ⟨stack.takeWhile PlacedToken.isOperator, opened, below, ?_, ?_, ?_, ?_⟩
        · rw [← left, List.takeWhile_append_dropWhile]
        · exact fun p mem => List.mem_takeWhile_imp mem
        · simpa [left] using hit
        · rw [left] at h
          exact (Option.some.inj h).symm
  · cases h

theorem close_call {opened called : PlacedToken} {below : Stack} (h : called.isFunction = true) :
    close (opened :: called :: below) = ⟨[called], below⟩ := by
  simp [close, h]

theorem close_group {opened : PlacedToken} {below : Stack}
    (h : ∀ p ∈ below.head?, p.isFunction = false) : close (opened :: below) = ⟨[], below⟩ := by
  cases below with
  | nil => simp [close]
  | cons p below => simp [close, h p (by simp)]

theorem close_append (opened : PlacedToken) (base : Stack) :
    (close (opened :: base)).sent ++ (close (opened :: base)).stack = base := by
  unfold close
  dsimp only [List.tail_cons]
  split
  · cases base <;> rfl
  · rfl

theorem step_of_receive {stack : Stack} {p : PlacedToken} {move : Move}
    (h : stack.receive p = .ok move) : Step stack p move.sent move.stack := by
  obtain ⟨token, index⟩ := p
  unfold receive at h
  rcases token with ⟨literal, value⟩ | (f | o | literal | literal | literal)
  · obtain rfl := Except.ok.inj h
    exact Step.number
  · dsimp only at h
    split at h
    · next constant =>
      obtain rfl := Except.ok.inj h
      exact Step.constant constant
    · next called =>
      obtain rfl := Except.ok.inj h
      exact Step.function (Bool.eq_false_iff.mpr called)
  · obtain rfl := Except.ok.inj h
    -- The operators that `o` pops are the longest such front of the stack.
    have all : ∀ p ∈ stack.takeWhile (PlacedToken.poppedBy o), p.poppedBy o = true :=
      fun p mem => List.mem_takeWhile_imp mem
    have stop : ∀ p ∈ (stack.dropWhile (PlacedToken.poppedBy o)).head?, p.poppedBy o = false := by
      intro p mem
      have := List.head?_dropWhile_not (PlacedToken.poppedBy o) stack
      rw [mem] at this
      exact this
    have step := @Step.operator _ _ o index all stop
    rwa [List.takeWhile_append_dropWhile] at step
  · obtain rfl := Except.ok.inj h
    exact Step.opening
  · dsimp only at h
    split at h
    · next unwound eq =>
      obtain ⟨operators, opened, below, rfl, all, hit, rfl⟩ := exists_of_unwind?_eq_some eq
      obtain rfl := Except.ok.inj h
      dsimp only
      by_cases function : ∀ p ∈ below.head?, p.isFunction = false
      · rw [close_group function, List.append_nil]
        exact Step.closing all hit function
      · obtain ⟨called, below, rfl⟩ : ∃ called rest, below = called :: rest := by
          cases below with
          | nil => simp at function
          | cons called rest => exact ⟨called, rest, rfl⟩
        have called_function : called.isFunction = true := by simpa using function
        rw [close_call called_function]
        exact Step.closingCall all hit called_function
    · cases h
  · dsimp only at h
    split at h
    · next unwound eq =>
      obtain ⟨operators, opened, below, rfl, all, hit, rfl⟩ := exists_of_unwind?_eq_some eq
      obtain rfl := Except.ok.inj h
      exact Step.divider all hit
    · cases h

theorem receive_of_step {stack after : Stack} {p : PlacedToken} {sent : List PlacedToken}
    (h : Step stack p sent after) : stack.receive p = .ok ⟨sent, after⟩ := by
  unfold receive
  cases h with
  | number => rfl
  | constant constant => simp [constant]
  | function called => simp [called]
  | opening => rfl
  | operator all stop =>
      obtain ⟨take, drop⟩ := Text.takeWhile_dropWhile_append all stop
      simp [take, drop]
  | divider all hit => simp [unwind?_append all hit]
  | closing all hit function => simp [unwind?_append all hit, close_group function]
  | closingCall all hit function => simp [unwind?_append all hit, close_call function]

theorem receive_eq_ok_iff {stack after : Stack} {p : PlacedToken} {sent : List PlacedToken} :
    stack.receive p = .ok ⟨sent, after⟩ ↔ Step stack p sent after :=
  ⟨step_of_receive, receive_of_step⟩

theorem Step.unique {stack after after' : Stack} {p : PlacedToken} {sent sent' : List PlacedToken}
    (h : Step stack p sent after) (h' : Step stack p sent' after') :
    sent = sent' ∧ after = after' := by
  have eq := (receive_of_step h).symm.trans (receive_of_step h')
  simpa using eq

theorem Step.mem {stack after : Stack} {p : PlacedToken} {sent : List PlacedToken}
    (h : Step stack p sent after) : ∀ q ∈ sent ++ after, q ∈ stack ∨ q = p := by
  intro q mem
  cases h <;> grind

/-! ### Many tokens -/

/-- What tokens send to the output one after another, and the stack that they leave. -/
inductive Run : Stack → List PlacedToken → List PlacedToken → Stack → Prop
  | nil {stack} : Run stack [] [] stack
  | cons {stack between after p ps sent later} :
      Step stack p sent between → Run between ps later after →
      Run stack (p :: ps) (sent ++ later) after

theorem Run.single {stack after : Stack} {p : PlacedToken} {sent : List PlacedToken}
    (h : Step stack p sent after) : Run stack [p] sent after := by
  have := Run.cons h Run.nil
  rwa [List.append_nil] at this

theorem Run.append {stack between after : Stack} {ps ps' sent sent' : List PlacedToken}
    (h : Run stack ps sent between) (h' : Run between ps' sent' after) :
    Run stack (ps ++ ps') (sent ++ sent') after := by
  induction h with
  | nil => exact h'
  | cons step _ ih =>
      rw [List.cons_append, List.append_assoc]
      exact Run.cons step (ih h')

theorem Run.of_append {stack after : Stack} {ps ps' sent : List PlacedToken}
    (h : stack.Run (ps ++ ps') sent after) :
    ∃ first between later, sent = first ++ later ∧ stack.Run ps first between ∧
      between.Run ps' later after := by
  induction ps generalizing stack sent with
  | nil => exact ⟨[], stack, sent, rfl, Run.nil, h⟩
  | cons p ps ih =>
      cases h with
      | @cons _ _ _ _ _ here _ step rest =>
          obtain ⟨first, between, later, rfl, run, run'⟩ := ih rest
          exact
            ⟨here ++ first, between, later, (List.append_assoc ..).symm, Run.cons step run, run'⟩

theorem mem_of_mem_cons {stack between : Stack} {p : PlacedToken}
    {ps first later : List PlacedToken}
    (here : ∀ q ∈ first ++ between, q ∈ stack ∨ q = p)
    (rest : ∀ q ∈ later, q ∈ between ∨ q ∈ ps) : ∀ q ∈ first ++ later, q ∈ stack ∨ q ∈ p :: ps := by
  intro q mem
  have source (mem : q ∈ first ++ between) : q ∈ stack ∨ q ∈ p :: ps := by
    rcases here q mem with mem | rfl
    · exact Or.inl mem
    · exact Or.inr List.mem_cons_self
  rcases List.mem_append.mp mem with mem | mem
  · exact source (List.mem_append_left _ mem)
  · rcases rest q mem with mem | mem
    · exact source (List.mem_append_right _ mem)
    · exact Or.inr (List.mem_cons_of_mem p mem)

/-- Tokens send and leave only what was waiting and themselves. -/
theorem Run.mem {stack after : Stack} {ps sent : List PlacedToken} (h : stack.Run ps sent after) :
    ∀ q ∈ sent ++ after, q ∈ stack ∨ q ∈ ps := by
  induction h with
  | nil => exact fun q mem => Or.inl mem
  | cons step _ ih =>
      rw [List.append_assoc]
      exact mem_of_mem_cons step.mem ih

/-- What comes out of tokens that start an expression has places among theirs. -/
theorem Run.index_lt {after : Stack} {tokens : List Token} {sent : List PlacedToken}
    (h : Run [] (place 0 tokens) sent after) : ∀ q ∈ sent ++ after, q.index < tokens.length := by
  intro q mem
  have read := (h.mem q mem).resolve_left List.not_mem_nil
  simpa using index_lt_of_mem_place read

theorem Run.unique {stack after after' : Stack} {ps sent sent' : List PlacedToken}
    (h : Run stack ps sent after) (h' : Run stack ps sent' after') :
    sent = sent' ∧ after = after' := by
  induction h generalizing sent' with
  | nil =>
      cases h'
      exact ⟨rfl, rfl⟩
  | cons step _ ih =>
      cases h' with
      | cons step' run' =>
          obtain ⟨rfl, rfl⟩ := step.unique step'
          obtain ⟨rfl, rfl⟩ := ih run'
          exact ⟨rfl, rfl⟩

end Stack

end ReversePolish

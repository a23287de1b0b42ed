import ReversePolish.Proofs.Receiving
import ReversePolish.Proofs.Spelling

/-! # Tables that agree but for precedences

Of a symbol table, reading sees only which characters numbers are made of and what is found under a
literal, and reordering sees only which operators pop which.  So tables that agree in this
(`SymbolTable.Agrees`), where operators are the same up to a map of precedences, give the same
result for every expression, up to that map: the same tokens (`tokenize_of_agrees`), the same
postfix form or error (`parse_of_agrees`), and so the same text (`convert_of_agrees`).

Each stage is a function of what it is given, so it is shown to commute with the map, and a stage
that loops by induction on its loop. -/

namespace ReversePolish

variable (g : Precedence → Precedence)

/-! ### Precedences under a map -/

def OperatorSymbol.mapPrecedence (o : OperatorSymbol) : OperatorSymbol :=
  { o with precedence := g o.precedence }

def Symbol.mapPrecedence : Symbol → Symbol
  | .operator o => .operator (o.mapPrecedence g)
  | s => s

def Token.mapPrecedence : Token → Token
  | .symbol s => .symbol (s.mapPrecedence g)
  | a => a

def PlacedToken.mapPrecedence (p : PlacedToken) : PlacedToken :=
  { p with token := p.token.mapPrecedence g }

/-- An error with the precedence in its token changed, if it has one. -/
def ConversionError.mapPrecedence : ConversionError → ConversionError
  | .misplaced p => .misplaced (p.mapPrecedence g)
  | e => e

theorem Symbol.literal_mapPrecedence (s : Symbol) : (s.mapPrecedence g).literal = s.literal := by
  cases s <;> rfl

theorem Token.literal_mapPrecedence (a : Token) : (a.mapPrecedence g).literal = a.literal := by
  cases a with
  | number => rfl
  | symbol s => exact s.literal_mapPrecedence g

theorem Token.acceptsNumber_mapPrecedence (a : Token) :
    (a.mapPrecedence g).acceptsNumber = a.acceptsNumber := by
  rcases a with _ | (_ | _ | _ | _ | _) <;> rfl

theorem Token.isOpening_mapPrecedence (a : Token) :
    (a.mapPrecedence g).isOpening = a.isOpening := by
  rcases a with _ | (_ | _ | _ | _ | _) <;> rfl

theorem PlacedToken.isOperator_mapPrecedence (p : PlacedToken) :
    (p.mapPrecedence g).isOperator = p.isOperator := by
  obtain ⟨token, index⟩ := p
  rcases token with _ | (_ | _ | _ | _ | _) <;> rfl

theorem PlacedToken.isFunction_mapPrecedence (p : PlacedToken) :
    (p.mapPrecedence g).isFunction = p.isFunction := by
  obtain ⟨token, index⟩ := p
  rcases token with _ | (_ | _ | _ | _ | _) <;> rfl

theorem PlacedToken.isOpening_mapPrecedence (p : PlacedToken) :
    (p.mapPrecedence g).isOpening = p.isOpening :=
  p.token.isOpening_mapPrecedence g

theorem ConversionError.message_mapPrecedence (e : ConversionError) :
    (e.mapPrecedence g).message = e.message := by
  cases e with
  | reordering => rfl
  | misplaced p =>
      unfold mapPrecedence message PlacedToken.mapPrecedence
      dsimp only
      rw [Token.literal_mapPrecedence]

theorem takeWhile_dropWhile_congr {α : Type} {test test' : α → Bool} {l : List α}
    (same : ∀ a ∈ l, test a = test' a) :
    l.takeWhile test = l.takeWhile test' ∧ l.dropWhile test = l.dropWhile test' := by
  induction l with
  | nil => exact ⟨rfl, rfl⟩
  | cons a l ih =>
      obtain ⟨take, drop⟩ := ih fun b mem => same b (List.mem_cons_of_mem a mem)
      have here := same a List.mem_cons_self
      simp only [List.takeWhile_cons, List.dropWhile_cons, here, take, drop, and_self]

namespace Stack

/-- What a token sends and leaves, with the precedences changed. -/
def Move.mapPrecedence (move : Move) : Move :=
  ⟨move.sent.map (PlacedToken.mapPrecedence g), move.stack.map (PlacedToken.mapPrecedence g)⟩

theorem unwind?_map (stack : Stack) :
    unwind? (stack.map (PlacedToken.mapPrecedence g)) =
      stack.unwind?.map (Move.mapPrecedence g) := by
  unfold unwind?
  simp only [List.dropWhile_map, List.takeWhile_map, List.head?_map, Option.any_map,
    Function.comp_def, PlacedToken.isOperator_mapPrecedence, PlacedToken.isOpening_mapPrecedence]
  split <;> rfl

theorem close_map (stack : Stack) :
    close (stack.map (PlacedToken.mapPrecedence g)) = (close stack).mapPrecedence g := by
  unfold close
  simp only [← List.map_tail, List.head?_map, Option.any_map, PlacedToken.isFunction_mapPrecedence,
    ← List.map_take]
  split <;> rfl

end Stack

/-! ### Agreement -/

/-- What a table finds, another one finds under the same literal with its precedence changed by the
map, which keeps the order of the precedences. -/
structure SymbolTable.Agrees (table table' : SymbolTable) : Prop where
  isNumberChar_eq : ∀ c, table'.isNumberChar c = table.isNumberChar c
  lookup_eq : ∀ literal,
    table'.lookup literal = (table.lookup literal).map (Symbol.mapPrecedence g)
  pops_eq : ∀ t ∈ table.operators, ∀ s ∈ table.operators,
    (t.mapPrecedence g).pops (s.mapPrecedence g) = t.pops s

/-- A token is no operator, or one of the table. -/
def Token.IsOf (table : SymbolTable) (a : Token) : Prop :=
  ∀ o, a = .symbol (.operator o) → o ∈ table.operators

variable {g} {table table' : SymbolTable}

theorem Scanner.Reads.isOf {s : Scanner} {tokens : List Token} {fault : Option ScanError}
    (reads : s.Reads table tokens fault) : ∀ a ∈ tokens, a.IsOf table := by
  induction reads with
  | done => simp
  | fault => simp
  | @token s after a tokens fault _ read_eq _ ih =>
      have here : a.IsOf table := by
        obtain ⟨_, _, _, _, denotes⟩ := exists_denotes_of_read read_eq
        rintro o rfl
        have mem := denotes.symbol_mem
        simpa [SymbolTable.symbols] using mem
      simpa using ⟨here, ih⟩

/-! ### Lexemes -/

namespace Lexeme

variable {offset : Nat} {first : Char} {rest : List Char}

/-- The lexeme with the precedence in its token changed, if it has one. -/
def mapPrecedence (g : Precedence → Precedence) (l : Lexeme) : Lexeme :=
  { l with result := l.result.map (Token.mapPrecedence g) }

theorem startsNumber_of_agrees (agrees : table.Agrees g table') (previous : Option Token) :
    startsNumber table' (previous.map (Token.mapPrecedence g)) first rest =
      startsNumber table previous first rest := by
  have number_chars : table'.isNumberChar = table.isNumberChar := funext agrees.isNumberChar_eq
  unfold startsNumber
  rw [number_chars]
  cases previous with
  | none => rfl
  | some a =>
      dsimp only [Option.map_some, Option.all_some]
      rw [a.acceptsNumber_mapPrecedence g]

theorem number_of_agrees (agrees : table.Agrees g table') :
    number table' offset first rest = (number table offset first rest).mapPrecedence g := by
  have text_eq : numberText table' first rest = numberText table first rest := by
    unfold numberText
    simp only [agrees.isNumberChar_eq]
  unfold number
  rw [text_eq]
  dsimp only
  split <;> rfl

theorem symbol_of_agrees (agrees : table.Agrees g table') (text : List Char) :
    symbol table' offset text rest = (symbol table offset text rest).mapPrecedence g := by
  induction rest generalizing text with
  | nil =>
      rw [symbol, symbol, agrees.lookup_eq]
      cases table.lookup (String.ofList text) <;> rfl
  | cons c rest ih =>
      rw [symbol, symbol, agrees.lookup_eq]
      cases table.lookup (String.ofList text) with
      | some s => rfl
      | none =>
          dsimp only [Option.map_none]
          split
          · rfl
          · exact ih _

theorem scan_of_agrees (agrees : table.Agrees g table') (previous : Option Token) :
    scan table' (previous.map (Token.mapPrecedence g)) offset first rest =
      (scan table previous offset first rest).mapPrecedence g := by
  rw [scan, scan, startsNumber_of_agrees agrees, number_of_agrees agrees, symbol_of_agrees agrees]
  split <;> rfl

end Lexeme

/-! ### Scanners -/

namespace Scanner

variable {s : Scanner}

/-- The scanner with the precedence in its last token changed, if it has one. -/
def mapPrecedence (g : Precedence → Precedence) (s : Scanner) : Scanner :=
  { s with previous := s.previous.map (Token.mapPrecedence g) }

theorem read_of_agrees (agrees : table.Agrees g table') (s : Scanner) :
    (s.mapPrecedence g).read table' =
      ((s.read table).1.map (Token.mapPrecedence g), (s.read table).2.mapPrecedence g) := by
  have skipped : (s.mapPrecedence g).skipBlanks = s.skipBlanks.mapPrecedence g := rfl
  have rest_eq : (s.skipBlanks.mapPrecedence g).rest = s.skipBlanks.rest := rfl
  simp only [read]
  rw [skipped, rest_eq]
  cases s.skipBlanks.rest with
  | nil => rfl
  | cons first rest =>
      have scanned := @Lexeme.scan_of_agrees g table table' s.skipBlanks.cursor first rest agrees
        s.skipBlanks.previous
      have cursor_eq : (s.skipBlanks.mapPrecedence g).cursor = s.skipBlanks.cursor := rfl
      have previous_eq : (s.skipBlanks.mapPrecedence g).previous =
          s.skipBlanks.previous.map (Token.mapPrecedence g) := rfl
      dsimp only
      rw [cursor_eq, previous_eq, scanned]
      unfold Lexeme.mapPrecedence
      dsimp only
      cases (Lexeme.scan table s.skipBlanks.previous s.skipBlanks.cursor first rest).result <;> rfl

theorem Reads.of_agrees (agrees : table.Agrees g table') {tokens : List Token}
    {fault : Option ScanError} (reads : s.Reads table tokens fault) :
    (s.mapPrecedence g).Reads table' (tokens.map (Token.mapPrecedence g)) fault := by
  induction reads with
  | done ended => exact Reads.done ended
  | @fault s after e more read_eq =>
      have read_eq' := read_of_agrees agrees s
      rw [read_eq] at read_eq'
      exact Reads.fault more read_eq'
  | @token s after a tokens fault more read_eq _ ih =>
      have read_eq' := read_of_agrees agrees s
      rw [read_eq] at read_eq'
      exact Reads.token more read_eq' ih

end Scanner

/-- Tables that agree find the same tokens in an expression, up to their precedences, or the same
error. -/
theorem tokenize_of_agrees (agrees : table.Agrees g table') (expression : String) :
    tokenize table' expression =
      (tokenize table expression).map (List.map (Token.mapPrecedence g)) := by
  obtain ⟨tokens, fault, reads⟩ := Scanner.exists_reads table (Scanner.ofText expression)
  have reads' : (Scanner.ofText expression).Reads table' (tokens.map (Token.mapPrecedence g))
      fault := reads.of_agrees agrees
  unfold tokenize
  rw [Scanner.tokens_eq_of_reads reads rfl, Scanner.tokens_eq_of_reads reads' rfl]
  cases fault <;> rfl

/-! ### The stack -/

namespace Stack

theorem poppedBy_of_agrees (agrees : table.Agrees g table') {o : OperatorSymbol}
    {p : PlacedToken} (o_mem : o ∈ table.operators) (p_of : p.token.IsOf table) :
    (p.mapPrecedence g).poppedBy (o.mapPrecedence g) = p.poppedBy o := by
  obtain ⟨token, index⟩ := p
  rcases token with _ | (_ | s | _ | _ | _)
  case symbol.operator => exact agrees.pops_eq o o_mem s (p_of s rfl)
  all_goals rfl

theorem receive_of_agrees (agrees : table.Agrees g table') {stack : Stack} {p : PlacedToken}
    (stack_of : ∀ q ∈ stack, q.token.IsOf table) (p_of : p.token.IsOf table) :
    receive (stack.map (PlacedToken.mapPrecedence g)) (p.mapPrecedence g) =
      (stack.receive p).map (Move.mapPrecedence g) := by
  obtain ⟨token, index⟩ := p
  rcases token with _ | (f | o | _ | _ | _)
  case number => rfl
  case symbol.function =>
    simp only [receive, PlacedToken.mapPrecedence, Token.mapPrecedence, Symbol.mapPrecedence]
    split <;> rfl
  case symbol.operator =>
    have popped : ∀ q ∈ stack, (PlacedToken.poppedBy (o.mapPrecedence g) ∘
        PlacedToken.mapPrecedence g) q = q.poppedBy o :=
      fun q mem => poppedBy_of_agrees agrees (p_of o rfl) (stack_of q mem)
    obtain ⟨take, drop⟩ := takeWhile_dropWhile_congr popped
    simp only [receive, PlacedToken.mapPrecedence, Token.mapPrecedence, Symbol.mapPrecedence,
      List.takeWhile_map, List.dropWhile_map, take, drop]
    rfl
  case symbol.opening => rfl
  case symbol.closing =>
    simp only [receive, PlacedToken.mapPrecedence, Token.mapPrecedence, Symbol.mapPrecedence,
      unwind?_map]
    cases stack.unwind? with
    | none => rfl
    | some move =>
        simp only [Option.map_some, Move.mapPrecedence, close_map, ← List.map_append]
        rfl
  case symbol.divider =>
    simp only [receive, PlacedToken.mapPrecedence, Token.mapPrecedence, Symbol.mapPrecedence,
      unwind?_map]
    cases stack.unwind? <;> rfl

end Stack

/-! ### Neighbours -/

namespace Adjacency

theorem fits_mapPrecedence (previous current next : Token) :
    fits (previous.mapPrecedence g) (current.mapPrecedence g) (next.mapPrecedence g) =
      fits previous current next := by
  have expects : expectsOperand (previous.mapPrecedence g) = expectsOperand previous := by
    rcases previous with _ | (_ | _ | _ | _ | _) <;> rfl
  have refuses : refusesOperand (next.mapPrecedence g) = refusesOperand next := by
    rcases next with _ | (_ | _ | _ | _ | _) <;> rfl
  rcases current with _ | (f | o | _ | _ | _)
  case symbol.function =>
    change (if f.isConstant then !(next.mapPrecedence g).isOpening
      else (next.mapPrecedence g).isOpening) = _
    rw [Token.isOpening_mapPrecedence]
    rfl
  case symbol.operator =>
    change (!expectsOperand (previous.mapPrecedence g) &&
      !(o.isBinary && refusesOperand (next.mapPrecedence g))) = _
    rw [expects, refuses]
    rfl
  all_goals rfl

theorem starts_mapPrecedence (a : Token) : starts (a.mapPrecedence g) = starts a := by
  rcases a with _ | (_ | _ | _ | _ | _) <;> rfl

theorem ends_mapPrecedence (a : Token) : ends (a.mapPrecedence g) = ends a := by
  rcases a with _ | (_ | _ | _ | _ | _) <;> rfl

theorem firstMisfit?_map (index : Nat) (tokens : List Token) :
    firstMisfit? index (tokens.map (Token.mapPrecedence g)) =
      (firstMisfit? index tokens).map (PlacedToken.mapPrecedence g) := by
  fun_induction firstMisfit? index tokens with
  | case1 index previous current next rest fit ih =>
      simp only [List.map_cons] at ih ⊢
      rw [firstMisfit?, fits_mapPrecedence, if_pos fit, ih]
  | case2 index previous current next rest unfit =>
      simp only [List.map_cons]
      rw [firstMisfit?, fits_mapPrecedence, if_neg unfit]
      rfl
  | case3 tokens index short =>
      rcases tokens with _ | ⟨a, _ | ⟨b, _ | ⟨c, tokens⟩⟩⟩
      · rfl
      · rfl
      · rfl
      · exact absurd rfl (short a b c tokens)

theorem firstMisplaced?_map (tokens : List Token) :
    firstMisplaced? (tokens.map (Token.mapPrecedence g)) =
      (firstMisplaced? tokens).map (PlacedToken.mapPrecedence g) := by
  unfold firstMisplaced?
  simp only [firstMisfit?_map, List.head?_map, List.getLast?_map, Option.filter_map,
    Function.comp_def, starts_mapPrecedence, ends_mapPrecedence, Option.map_map, Option.map_or,
    List.length_map]
  rfl

end Adjacency

/-! ### Whole expressions -/

namespace Reordering

/-- What has been read of an expression, what waits and what has been sent, with the precedences
changed. -/
def mapPrecedence (g : Precedence → Precedence) (r : Reordering) : Reordering where
  read := r.read.map (Token.mapPrecedence g)
  stack := r.stack.map (PlacedToken.mapPrecedence g)
  output := r.output.map (PlacedToken.mapPrecedence g)

theorem empty_mapPrecedence : empty.mapPrecedence g = empty := by
  simp [mapPrecedence, empty]

theorem map_appendList {α β : Type} (f : α → β) (xs : Array α) (l : List α) :
    (xs ++ l).map f = xs.map f ++ l.map f :=
  Array.ext' (by simp)

theorem push_of_agrees (agrees : table.Agrees g table') {r : Reordering} {a : Token}
    (stack_of : ∀ p ∈ r.stack, p.token.IsOf table) (a_of : a.IsOf table) :
    (r.mapPrecedence g).push (a.mapPrecedence g) = (r.push a).map (mapPrecedence g) := by
  have received := Stack.receive_of_agrees agrees (p := ⟨a, r.read.size⟩) stack_of a_of
  have placed : (PlacedToken.mapPrecedence g ⟨a, r.read.size⟩) =
      ⟨a.mapPrecedence g, (r.read.map (Token.mapPrecedence g)).size⟩ := by
    rw [Array.size_map]
    rfl
  rw [placed] at received
  have stack_eq : (r.mapPrecedence g).stack = r.stack.map (PlacedToken.mapPrecedence g) := rfl
  have read_eq : (r.mapPrecedence g).read = r.read.map (Token.mapPrecedence g) := rfl
  unfold push
  rw [stack_eq, read_eq, received]
  cases r.stack.receive ⟨a, r.read.size⟩ with
  | error e => rfl
  | ok move =>
      simp [Except.map, mapPrecedence, Stack.Move.mapPrecedence, map_appendList]

theorem pushAll_of_agrees (agrees : table.Agrees g table') {r : Reordering} {tokens : List Token}
    (stack_of : ∀ p ∈ r.stack, p.token.IsOf table) (tokens_of : ∀ a ∈ tokens, a.IsOf table) :
    (r.mapPrecedence g).pushAll (tokens.map (Token.mapPrecedence g)) =
      (r.pushAll tokens).map (mapPrecedence g) := by
  induction tokens generalizing r with
  | nil => rfl
  | cons a tokens ih =>
      have a_of := tokens_of a List.mem_cons_self
      have pushed' := push_of_agrees agrees stack_of a_of
      rw [List.map_cons]
      cases pushed : r.push a with
      | error e =>
          rw [pushed] at pushed'
          rw [pushAll_cons_of_error pushed, pushAll_cons_of_error pushed']
          rfl
      | ok next =>
          rw [pushed] at pushed'
          rw [pushAll_cons_of_ok pushed, pushAll_cons_of_ok pushed']
          obtain ⟨sent, step, -, -⟩ := step_of_push pushed
          refine ih (fun p mem => ?_) fun b mem => tokens_of b (List.mem_cons_of_mem a mem)
          rcases step.mem p (List.mem_append_right sent mem) with waiting | rfl
          · exact stack_of p waiting
          · exact a_of

theorem finish_map (r : Reordering) :
    (r.mapPrecedence g).finish = r.finish.map (mapPrecedence g) := by
  unfold finish
  simp only [mapPrecedence, List.any_map, Function.comp_def, PlacedToken.isOpening_mapPrecedence]
  split
  · rfl
  · simp [Except.map, mapPrecedence, map_appendList]

theorem ofExpression_of_agrees (agrees : table.Agrees g table') (expression : String) :
    ofExpression table' expression = (ofExpression table expression).map (mapPrecedence g) := by
  obtain ⟨tokens, fault, reads⟩ := Scanner.exists_reads table (Scanner.ofText expression)
  have reads' : (Scanner.ofText expression).Reads table' (tokens.map (Token.mapPrecedence g))
      fault := reads.of_agrees agrees
  have received : empty.pushAll (tokens.map (Token.mapPrecedence g)) =
      (empty.pushAll tokens).map (mapPrecedence g) := by
    have received := pushAll_of_agrees agrees (r := empty) (by simp [empty]) reads.isOf
    rwa [empty_mapPrecedence] at received
  rw [ofExpression_of_reads reads, ofExpression_of_reads reads', received]
  cases empty.pushAll tokens with
  | error e => rfl
  | ok r =>
      dsimp only [Except.map]
      cases fault with
      | some e => rfl
      | none =>
          dsimp only [Option.elim]
          rw [finish_map]
          cases r.finish <;> rfl

end Reordering

/-- Tables that agree give an expression the same postfix form, up to the precedences, or the same
error. -/
theorem parse_of_agrees (agrees : table.Agrees g table') (expression : String) :
    parse table' expression =
      ((parse table expression).map (List.map (Token.mapPrecedence g))).mapError
        (ConversionError.mapPrecedence g) := by
  unfold parse
  rw [Reordering.ofExpression_of_agrees agrees]
  cases Reordering.ofExpression table expression with
  | error e => rfl
  | ok r =>
      have read_eq : (r.mapPrecedence g).read.toList = r.read.toList.map (Token.mapPrecedence g) :=
        Array.toList_map
      have postorder_eq : (r.mapPrecedence g).postorder =
          r.postorder.map (Token.mapPrecedence g) := by
        simp [Reordering.postorder, Reordering.mapPrecedence, PlacedToken.mapPrecedence]
      dsimp only [Except.map]
      rw [read_eq, Adjacency.firstMisplaced?_map, postorder_eq]
      cases Adjacency.firstMisplaced? r.read.toList <;> rfl

/-- Tables that agree give an expression the same text, or the same error up to the precedence in
it. -/
theorem convert_of_agrees (agrees : table.Agrees g table') (expression : String) :
    convert table' expression =
      (convert table expression).mapError (ConversionError.mapPrecedence g) := by
  have joined (output : List Token) : Token.joinLiterals (output.map (Token.mapPrecedence g)) =
      Token.joinLiterals output := by
    simp only [Token.joinLiterals, List.map_map, Function.comp_def, Token.literal_mapPrecedence]
  unfold convert
  rw [parse_of_agrees agrees]
  cases parse table expression with
  | error e => rfl
  | ok output => exact congrArg Except.ok (joined output)

end ReversePolish

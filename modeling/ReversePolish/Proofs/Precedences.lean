import ReversePolish.Proofs.Agreement

/-! # Changing precedences

Reordering compares the precedences of two operators and does nothing else with them.  So a map that
keeps the order of the precedences of a table changes no text and no message, and the tokens of the
postfix form only in their precedences (`parse_mapPrecedence`): the two tables agree
(`SymbolTable.agrees_mapPrecedence`).

The map is asked to be increasing on the precedences of the table alone.  One that is strictly
increasing on all integers of 32 bits moves none of them, while the few precedences of a table can
be spread or pushed together at will. -/

namespace ReversePolish

variable {g : Precedence → Precedence} {table : SymbolTable}

theorem Precedence.value_injective : Function.Injective Precedence.value := by
  rintro ⟨n, _⟩ ⟨m, _⟩ (same : n = m)
  subst same
  rfl

namespace SymbolTable

/-- The table with the precedence of every operator changed. -/
def mapPrecedence (g : Precedence → Precedence) (table : SymbolTable) : SymbolTable :=
  { table with operators := table.operators.map (OperatorSymbol.mapPrecedence g) }

/-- The precedences of a table have the same order after the map as before it. -/
def KeepsOrder (g : Precedence → Precedence) (table : SymbolTable) : Prop :=
  ∀ t ∈ table.operators, ∀ s ∈ table.operators,
    t.precedence.value < s.precedence.value → (g t.precedence).value < (g s.precedence).value

instance : Decidable (KeepsOrder g table) :=
  inferInstanceAs (Decidable (∀ t ∈ table.operators, ∀ s ∈ table.operators,
    t.precedence.value < s.precedence.value → (g t.precedence).value < (g s.precedence).value))

theorem symbols_mapPrecedence (table : SymbolTable) :
    (table.mapPrecedence g).symbols = table.symbols.map (Symbol.mapPrecedence g) := by
  simp [symbols, mapPrecedence, Function.comp_def, Symbol.mapPrecedence]

theorem lookup_mapPrecedence (table : SymbolTable) (literal : String) :
    (table.mapPrecedence g).lookup literal =
      (table.lookup literal).map (Symbol.mapPrecedence g) := by
  rw [lookup, symbols_mapPrecedence, List.find?_map]
  simp only [lookup, Function.comp_def, Symbol.literal_mapPrecedence]

/-- Operators of the table are compared as before, also those of equal precedence: whatever order
they had, the map kept it. -/
theorem KeepsOrder.pops_eq (keeps : KeepsOrder g table) {t s : OperatorSymbol}
    (t_mem : t ∈ table.operators) (s_mem : s ∈ table.operators) :
    (t.mapPrecedence g).pops (s.mapPrecedence g) = t.pops s := by
  have below := keeps t t_mem s s_mem
  have above := keeps s s_mem t t_mem
  have equal : s.precedence.value = t.precedence.value →
      (g s.precedence).value = (g t.precedence).value := fun same =>
    congrArg (fun p => (g p).value) (Precedence.value_injective same)
  have lower_iff : (g t.precedence).value < (g s.precedence).value ↔
      t.precedence.value < s.precedence.value := by omega
  have equal_iff : (g s.precedence).value = (g t.precedence).value ↔
      s.precedence.value = t.precedence.value := by omega
  rw [Bool.eq_iff_iff, OperatorSymbol.pops_iff, OperatorSymbol.pops_iff]
  exact or_congr lower_iff (and_congr_left' equal_iff)

theorem agrees_mapPrecedence (keeps : KeepsOrder g table) :
    table.Agrees g (table.mapPrecedence g) where
  isNumberChar_eq _ := rfl
  lookup_eq := table.lookup_mapPrecedence
  pops_eq _ t_mem _ s_mem := keeps.pops_eq t_mem s_mem

end SymbolTable

/-- When the precedences of a table are changed and keep their order, an expression has the same
postfix form, but for those precedences, or the same error; and its text, or the message of its
error, is the same. -/
theorem parse_mapPrecedence (keeps : table.KeepsOrder g) (expression : String) :
    parse (table.mapPrecedence g) expression =
        ((parse table expression).map (List.map (Token.mapPrecedence g))).mapError
          (ConversionError.mapPrecedence g) ∧
      convert (table.mapPrecedence g) expression =
        (convert table expression).mapError (ConversionError.mapPrecedence g) ∧
      (convert (table.mapPrecedence g) expression).mapError ConversionError.message =
        (convert table expression).mapError ConversionError.message := by
  have agrees := SymbolTable.agrees_mapPrecedence keeps
  have converted := convert_of_agrees agrees expression
  refine ⟨parse_of_agrees agrees expression, converted, ?_⟩
  rw [converted]
  cases convert table expression with
  | ok text => rfl
  | error e => exact congrArg Except.error (e.message_mapPrecedence g)

/-- Sums at the lowest precedence there is and factorials at the highest one. -/
def Precedence.spread (p : Precedence) : Precedence :=
  if p.value ≤ 1 then ⟨-0x80000000, by decide⟩
  else if p.value ≤ 3 then p
  else ⟨0x7fffffff, by decide⟩

/-- With the precedences spread over all of their range, `9-3*4!` has the same text, and the `-` of
`1*2-` is misplaced with the same message. -/
theorem parse_mapPrecedence_spread :
    SymbolTable.standard.KeepsOrder Precedence.spread ∧
    convert (SymbolTable.standard.mapPrecedence Precedence.spread) "9-3*4!" =
      .ok "9 3 4 ! * -" ∧
    (convert (SymbolTable.standard.mapPrecedence Precedence.spread) "1*2-").mapError
      ConversionError.message = .error "token - at position 3 cannot appear there" := by
  have keeps : SymbolTable.standard.KeepsOrder Precedence.spread := by
    decide
  have converted : convert .standard "9-3*4!" = .ok "9 3 4 ! * -" := by
    decide +kernel
  have refused : (convert .standard "1*2-").mapError ConversionError.message =
      .error "token - at position 3 cannot appear there" := by
    decide +kernel
  refine ⟨keeps, ?_, ?_⟩
  · rw [(parse_mapPrecedence keeps "9-3*4!").2.1, converted]
    rfl
  · rw [(parse_mapPrecedence keeps "1*2-").2.2, refused]

end ReversePolish

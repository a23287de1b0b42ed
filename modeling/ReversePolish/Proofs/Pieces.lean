import ReversePolish.Proofs.Canonical

/-! # The pieces of the postfix text

The text of a postfix form is split at its spaces into the literals of its tokens.  With the
standard table a piece by itself is one token, the same as the one that it was written for, if and
only if that token is finite (`reread_piece_iff`).  The literal of every finite value is a number
where nothing comes before it (`denotes_literal`), and no literal of the standard table starts with
another one or is taken for a number (`tokenize_literal_standard`).

A number that is too large is read as infinity without an error, and the text of infinity cannot be
read (`unread_infinity`). -/

namespace ReversePolish

/-! ### Splitting the text -/

namespace Text

/-- The parts of a text between its spaces. -/
def pieces (text : String) : List String := (text.split ' ').toList.map String.Slice.copy

theorem pieces_intercalate {words : List String} (visible : ∀ word ∈ words, Visible word)
    (nonempty : words ≠ []) : pieces (" ".intercalate words) = words := by
  have no_space : ∀ word ∈ words, ' ' ∉ word.toList := by
    intro word mem space
    have shown := (visible word mem).2 ' ' space
    rw [isBlank_space] at shown
    cases shown
  have split_eq := String.toList_split_intercalate no_space
  rwa [if_neg nonempty] at split_eq

end Text

variable {table : SymbolTable} {expression : String} {output : List Token}

theorem exists_denotes_of_parse (parsed : parse table expression = .ok output) :
    ∀ a ∈ output, ∃ previous text rest, Denotes table previous text rest a := by
  obtain ⟨tokens, -, -, tokenized, -⟩ := parse_eq_ok_iff.mp parsed
  exact fun a mem =>
    (spells_of_tokenize tokenized).exists_denotes a (mem_of_mem_parse tokenized parsed a mem)

theorem pieces_of_convert {text : String} (parsed : parse table expression = .ok output)
    (converted : convert table expression = .ok text) (nonempty : output ≠ []) :
    Text.pieces text = output.map Token.literal := by
  have visible := visible_of_parse parsed
  have words_visible : ∀ word ∈ output.map Token.literal, Text.Visible word := by
    simpa using visible
  rw [convert, parsed] at converted
  obtain rfl : Token.joinLiterals output = text := Except.ok.inj converted
  rw [joinLiterals_eq visible, Text.pieces_intercalate words_visible (by simpa using nonempty)]

/-! ### Reading a piece -/

theorem tokenize_literal_finite (plain : ∀ c ∈ plainNumberChars, c ∈ table.numberChars)
    (visible : ∀ c ∈ table.numberChars, Text.isBlank c = false) (negative : Bool)
    (rank : Fin Numeral.finiteCount) :
    tokenize table (Numeral.Binary64.finite negative rank).literal =
      .ok [.ofValue (Numeral.Binary64.finite negative rank).unsignedZero] := by
  have alone : Denotes table none (Numeral.Binary64.finite negative rank).literal.toList []
      (.ofValue (Numeral.Binary64.finite negative rank).unsignedZero) :=
    denotes_literal plain visible (by simp) (by simp)
  have spelled := Spells.of_denotes alone (Spells.blank (by simp))
  rw [List.append_nil] at spelled
  exact tokenize_of_spells spelled

theorem tokenize_literal_standard :
    ∀ s ∈ SymbolTable.standard.symbols, tokenize .standard s.literal = .ok [.symbol s] := by
  decide +kernel

theorem unread_of_not_finite {value : Numeral.Binary64}
    (not_finite : ∀ negative rank, value ≠ .finite negative rank) (b : Token) :
    tokenize .standard value.literal ≠ .ok [b] := by
  have nan : tokenize .standard "NaN" = .error (.unrecognized "NaN" 0) := by
    decide +kernel
  have infinity : tokenize .standard "inf" = .error (.unrecognized "inf" 0) := by
    decide +kernel
  have negative : tokenize .standard "-inf" = .error (.unrecognized "inf" 1) := by
    decide +kernel
  intro read
  cases value with
  | nan => cases nan.symm.trans read
  | infinity sign =>
      cases sign with
      | false => cases infinity.symm.trans read
      | true => cases negative.symm.trans read
  | finite sign rank => exact not_finite sign rank rfl

/-- Each token of a postfix form has a piece of the text, and the piece by itself is the same token
if and only if the token is finite. -/
theorem reread_piece_iff {text : String} (parsed : parse .standard expression = .ok output)
    (converted : convert .standard expression = .ok text) {i : Nat} {a : Token}
    (at_index : output[i]? = some a) :
    ∃ piece, (Text.pieces text)[i]? = some piece ∧
      ((∃ b, tokenize .standard piece = .ok [b] ∧ a.same b = true) ↔ a.IsFinite) := by
  have mem := List.mem_of_getElem? at_index
  obtain ⟨previous, source, rest, denotes⟩ := exists_denotes_of_parse parsed a mem
  have nonempty : output ≠ [] := List.ne_nil_of_mem mem
  refine ⟨a.literal, ?_, ?_, ?_⟩
  · rw [pieces_of_convert parsed converted nonempty, List.getElem?_map, at_index]
    rfl
  · rintro ⟨b, read, -⟩ literal value rfl
    obtain ⟨value', number_eq⟩ : ∃ value', Token.number literal value = .ofValue value' := by
      rcases denotes.kind with number | ⟨s, symbol_eq, -⟩
      · exact number
      · cases symbol_eq
    obtain ⟨rfl, rfl⟩ := Token.number.inj number_eq
    by_contra not_finite
    exact unread_of_not_finite (fun negative rank eq => not_finite ⟨negative, rank, eq⟩) b read
  · intro finite
    refine ⟨a.reread, ?_, denotes.same_reread finite⟩
    rcases denotes.kind with ⟨value, rfl⟩ | ⟨s, rfl, -⟩
    · obtain ⟨negative, rank, rfl⟩ := finite _ value rfl
      exact tokenize_literal_finite standard_plain standard_visible negative rank
    · exact tokenize_literal_standard s denotes.symbol_mem

/-- The digits of `10 ^ 309`, which is more than every finite value. -/
def hugeDigits : List Char := '1' :: List.replicate 309 '0'

/-- In `-0.5 sin inf +`, the text of `sin(-.5)+1000...0`, the first piece is read back and the third
one is not. -/
theorem reread_piece_iff_huge :
    ∃ output, parse .standard (String.ofList ("sin(-.5)+".toList ++ hugeDigits)) = .ok output ∧
      convert .standard (String.ofList ("sin(-.5)+".toList ++ hugeDigits)) =
        .ok "-0.5 sin inf +" ∧
      (∃ piece a b, (Text.pieces "-0.5 sin inf +")[0]? = some piece ∧ output[0]? = some a ∧
        tokenize .standard piece = .ok [b] ∧ a.same b = true) ∧
      ∃ piece a, (Text.pieces "-0.5 sin inf +")[2]? = some piece ∧ output[2]? = some a ∧
        ¬ ∃ b, tokenize .standard piece = .ok [b] ∧ a.same b = true := by
  have parsed : parse .standard (String.ofList ("sin(-.5)+".toList ++ hugeDigits)) =
      .ok [.ofValue (.ofRatio true 1 2), .symbol (.function ⟨"sin", 1, by decide⟩),
        .ofValue (.infinity false),
        .symbol (.operator ⟨"+", .two, .left, ⟨1, by decide⟩, by decide⟩)] := by
    rw [parse, Reordering.ofExpression, Scanner.ofText, String.toList_ofList]
    decide +kernel
  have converted : convert .standard (String.ofList ("sin(-.5)+".toList ++ hugeDigits)) =
      .ok "-0.5 sin inf +" := by
    rw [convert, parsed]
    decide +kernel
  have half_eq : Numeral.Binary64.ofRatio true 1 2 =
      .finite true ⟨0x3fe0000000000000, by decide⟩ := by
    decide +kernel
  have half_finite : (Token.ofValue (.ofRatio true 1 2)).IsFinite := by
    rintro literal value number_eq
    obtain ⟨-, rfl⟩ := Token.number.inj number_eq
    exact ⟨_, _, half_eq⟩
  have not_finite : ¬ (Token.ofValue (.infinity false)).IsFinite := by
    intro finite
    obtain ⟨negative, rank, eq⟩ := finite _ _ rfl
    cases eq
  obtain ⟨first, first_piece, reread⟩ := reread_piece_iff parsed converted (i := 0) rfl
  obtain ⟨third, third_piece, unread⟩ := reread_piece_iff parsed converted (i := 2) rfl
  obtain ⟨b, read, same⟩ := reread.mpr half_finite
  exact ⟨_, parsed, converted, ⟨first, _, b, first_piece, rfl, read, same⟩,
    third, _, third_piece, rfl, fun read => not_finite (unread.mp read)⟩

/-- A number that is too large is written as a piece that is no token. -/
theorem unread_infinity :
    parse .standard (String.ofList hugeDigits) = .ok [.ofValue (.infinity false)] ∧
    convert .standard (String.ofList hugeDigits) = .ok "inf" ∧ Text.pieces "inf" = ["inf"] ∧
    tokenize .standard "inf" = .error (.unrecognized "inf" 0) := by
  have parsed : parse .standard (String.ofList hugeDigits) =
      .ok [.ofValue (.infinity false)] := by
    rw [parse, Reordering.ofExpression, Scanner.ofText, String.toList_ofList]
    decide +kernel
  have converted : convert .standard (String.ofList hugeDigits) = .ok "inf" := by
    rw [convert, parsed]
    decide +kernel
  have pieces_eq : Text.pieces (" ".intercalate ["inf"]) = ["inf"] :=
    Text.pieces_intercalate (by simpa [Text.Visible] using by decide) (by decide)
  exact ⟨parsed, converted, pieces_eq, by decide +kernel⟩

end ReversePolish

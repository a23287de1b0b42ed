import ReversePolish.Text.Printable

/-! # Quoted text

A message shows a piece of text between double quotes.  The quote and the backslash get a
backslash; tab, newline, carriage return and NUL have escapes of one letter; every other
character that is not printable, or that would join the character before it, is written by its
code point in hexadecimal.  So a quoted text holds no white space but U+0020
(`isBlank_of_mem_quoted`). -/

namespace ReversePolish.Text

/-- A character by its code point, in lower case and without leading zeros. -/
def codePointEscape (c : Char) : List Char :=
  ['\\', 'u', '\x7b'] ++ Nat.toDigits 16 c.toNat ++ ['\x7d']

/-- A character as it stands between the quotes. -/
def escapeChar (c : Char) : List Char :=
  if c = '\x00' then ['\\', '0']
  else if c = '\t' then ['\\', 't']
  else if c = '\n' then ['\\', 'n']
  else if c = '\r' then ['\\', 'r']
  else if c = '"' then ['\\', '"']
  else if c = '\\' then ['\\', '\\']
  else if isPrintable c && !extendsGrapheme c then [c]
  else codePointEscape c

/-- A text between double quotes, with every character escaped that needs it. -/
def quoted (text : String) : String :=
  String.ofList (['"'] ++ text.toList.flatMap escapeChar ++ ['"'])

/-! ### No white space but U+0020 -/

theorem digitChar_not_blank : ∀ d < 16, isBlank d.digitChar = false := by decide

theorem isBlank_of_mem_toDigits (n : Nat) : ∀ d ∈ Nat.toDigits 16 n, isBlank d = false := by
  induction n using Nat.strongRecOn with
  | ind n ih =>
    rw [Nat.toDigits_eq_if (by decide)]
    split
    · next h => simpa using digitChar_not_blank n h
    · next h =>
      intro d mem
      rw [List.mem_append, List.mem_singleton] at mem
      rcases mem with mem | rfl
      · exact ih (n / 16) (by omega) d mem
      · exact digitChar_not_blank _ (Nat.mod_lt _ (by decide))

theorem isBlank_of_mem_escapeMarks {d : Char}
    (mem : d ∈ ['\\', '0', 't', 'n', 'r', '"', 'u', '\x7b', '\x7d']) : isBlank d = false := by
  simp only [List.mem_cons, List.not_mem_nil, or_false] at mem
  rcases mem with rfl | rfl | rfl | rfl | rfl | rfl | rfl | rfl | rfl <;> decide

theorem isBlank_of_mem_codePointEscape {c d : Char} (mem : d ∈ codePointEscape c) :
    isBlank d = false := by
  rw [codePointEscape, List.mem_append, List.mem_append] at mem
  rcases mem with (mem | mem) | mem
  · exact isBlank_of_mem_escapeMarks (by grind)
  · exact isBlank_of_mem_toDigits _ d mem
  · exact isBlank_of_mem_escapeMarks (by grind)

theorem isBlank_of_mem_escapeChar {c d : Char} (mem : d ∈ escapeChar c) (space : d ≠ ' ') :
    isBlank d = false := by
  rw [escapeChar] at mem
  iterate 6
    split at mem
    · exact isBlank_of_mem_escapeMarks (by grind)
  split at mem
  · next printable =>
    obtain rfl := List.mem_singleton.mp mem
    cases blank : isBlank d with
    | false => rfl
    | true => simp [isPrintable_eq_false_of_isBlank blank space] at printable
  · exact isBlank_of_mem_codePointEscape mem

theorem isBlank_of_mem_quoted {text : String} {d : Char} (mem : d ∈ (quoted text).toList)
    (space : d ≠ ' ') : isBlank d = false := by
  simp only [quoted, String.toList_ofList, List.mem_append, List.mem_singleton,
    List.mem_flatMap] at mem
  rcases mem with (rfl | ⟨c, -, mem⟩) | rfl
  · decide
  · exact isBlank_of_mem_escapeChar mem space
  · decide

end ReversePolish.Text

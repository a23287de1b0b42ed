/-! # Splitting at a separator

`splitFirst` cuts a text at the first separator.  The two parts rebuild the text, and the
first holds no separator (`splitFirst_eq_some_iff`).  Where a list is cut at the first member that
fails a test, the parts are what `takeWhile` and `dropWhile` give (`takeWhile_dropWhile_append`). -/

namespace ReversePolish.Text

/-- What stands before and after the first separator, if there is one. -/
def splitFirst (separator : Char) : List Char → Option (List Char × List Char)
  | [] => none
  | c :: cs =>
    if c = separator then some ([], cs)
    else (splitFirst separator cs).map fun parts => (c :: parts.1, parts.2)

theorem splitFirst_append {separator : Char} {before : List Char} (h : separator ∉ before)
    (after : List Char) :
    splitFirst separator (before ++ separator :: after) = some (before, after) := by
  induction before with
  | nil => simp [splitFirst]
  | cons c before ih =>
    rw [List.mem_cons, not_or] at h
    simp [splitFirst, Ne.symm h.1, ih h.2]

theorem splitFirst_eq_none_iff {separator : Char} {cs : List Char} :
    splitFirst separator cs = none ↔ separator ∉ cs := by
  induction cs with
  | nil => simp [splitFirst]
  | cons c cs ih =>
    by_cases h : c = separator
    · simp [splitFirst, h]
    · simp [splitFirst, h, ih, Ne.symm h]

theorem splitFirst_eq_some_iff {separator : Char} {cs before after : List Char} :
    splitFirst separator cs = some (before, after) ↔
      cs = before ++ separator :: after ∧ separator ∉ before := by
  constructor
  · intro h
    induction cs generalizing before with
    | nil => simp [splitFirst] at h
    | cons c cs ih =>
      by_cases hc : c = separator
      · simp only [splitFirst, hc, ↓reduceIte, Option.some.injEq, Prod.mk.injEq] at h
        obtain ⟨rfl, rfl⟩ := h
        simp [hc]
      · simp only [splitFirst, hc, ↓reduceIte, Option.map_eq_some_iff, Prod.mk.injEq] at h
        obtain ⟨⟨b, a⟩, hs, rfl, rfl⟩ := h
        obtain ⟨rfl, hb⟩ := ih hs
        simp [hb, Ne.symm hc]
  · rintro ⟨rfl, h⟩
    exact splitFirst_append h after

theorem takeWhile_dropWhile_append {α : Type} {test : α → Bool} {front back : List α}
    (all : ∀ a ∈ front, test a = true) (stop : ∀ a ∈ back.head?, test a = false) :
    (front ++ back).takeWhile test = front ∧ (front ++ back).dropWhile test = back := by
  rw [List.takeWhile_append_of_pos all, List.dropWhile_append_of_pos all]
  cases back with
  | nil => simp
  | cons b back => simp [stop b (by simp)]

end ReversePolish.Text

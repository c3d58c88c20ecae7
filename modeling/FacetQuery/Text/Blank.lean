import FacetQuery.Text.Ranges

/-!
# `FacetQuery.Text.Blank` — blanks, and texts without those at their ends

The table lists the blanks of all scripts, line breaks among them. What counts as a blank differs from
place to place, so `trim` is told.
-/

namespace FacetQuery.Text

/-- The blanks. -/
def blankRanges : Ranges :=
  [
    (0x9, 0xd), (0x20, 0x20), (0x85, 0x85), (0xa0, 0xa0), (0x1680, 0x1680), (0x2000, 0x200a),
    (0x2028, 0x2029), (0x202f, 0x202f), (0x205f, 0x205f), (0x3000, 0x3000)]

/-- Whether a character is a blank. -/
def isBlank (c : Char) : Bool := blankRanges.contain c

/-- A text without the characters of a class at its ends. -/
def trim (inClass : Char → Bool) (cs : List Char) : List Char :=
  ((cs.dropWhile inClass).reverse.dropWhile inClass).reverse

/-- A text that starts and ends outside the class stays as it is. -/
theorem trim_eq_self {inClass : Char → Bool} {cs : List Char}
    (hfirst : ∀ c ∈ cs.head?, inClass c = false) (hlast : ∀ c ∈ cs.getLast?, inClass c = false) :
    trim inClass cs = cs := by
  have hkeep : ∀ l : List Char, (∀ c ∈ l.head?, inClass c = false) → l.dropWhile inClass = l := by
    intro l h
    cases l with
    | nil => rfl
    | cons c l => simp [h c (by simp)]
  unfold trim
  rw [hkeep cs hfirst, hkeep cs.reverse (by simpa using hlast), List.reverse_reverse]

end FacetQuery.Text

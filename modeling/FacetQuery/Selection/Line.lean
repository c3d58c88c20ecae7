/-!
# `FacetQuery.Selection.Line` — the lines of a text

A line ends at `\n`, at `\r\n` (one break) or at a lone `\r`. `Lines.ofText` cuts a text at its breaks
and keeps which break stood where, so nothing is lost (`toText_ofText`).
-/

namespace FacetQuery.Selection

/-- What ends a line. -/
inductive Break where
  | lineFeed | carriageReturnLineFeed | carriageReturn
  deriving DecidableEq, Inhabited

/-- The characters of a break. -/
def Break.chars : Break → List Char
  | lineFeed => ['\n']
  | carriageReturnLineFeed => ['\r', '\n']
  | carriageReturn => ['\r']

/-- A text cut into lines: the first line, then each later line under the break that precedes it. -/
structure Lines where
  first : List Char
  later : List (Break × List Char)
  deriving DecidableEq, Inhabited

namespace Lines

/-- The lines of a text that is `c` followed by a text with the given lines. A `\r` in front of an empty
    first line that ends in `\n` joins that break. -/
def cons (c : Char) (ls : Lines) : Lines :=
  if c = '\n' then ⟨[], (.lineFeed, ls.first) :: ls.later⟩
  else if c = '\r' then
    match ls with
    | ⟨[], (.lineFeed, next) :: later⟩ => ⟨[], (.carriageReturnLineFeed, next) :: later⟩
    | ⟨first, later⟩ => ⟨[], (.carriageReturn, first) :: later⟩
  else ⟨c :: ls.first, ls.later⟩

/-- Cuts a text at its line breaks. -/
def ofText (text : List Char) : Lines := text.foldr cons ⟨[], []⟩

/-- The text that the lines and breaks make up. -/
def toText (ls : Lines) : List Char :=
  ls.first ++ ls.later.flatMap fun (brk, line) => brk.chars ++ line

/-- The lines without their breaks. -/
def toList (ls : Lines) : List (List Char) := ls.first :: ls.later.map (·.2)

@[simp] theorem ofText_nil : ofText [] = ⟨[], []⟩ := rfl

@[simp] theorem ofText_cons (c : Char) (cs : List Char) : ofText (c :: cs) = cons c (ofText cs) := rfl

@[simp] theorem toText_cons (c : Char) (ls : Lines) : (cons c ls).toText = c :: ls.toText := by
  unfold cons
  split
  · next h => simp [toText, Break.chars, h]
  · split
    · next h =>
        split
        · simp [toText, Break.chars, h]
        · simp [toText, Break.chars, h]
    · simp [toText]

/-- Cutting a text into lines loses nothing. -/
theorem toText_ofText (text : List Char) : (ofText text).toText = text := by
  induction text with
  | nil => rfl
  | cons c cs ih => rw [ofText_cons, toText_cons, ih]

/-- No line holds a character of a break. -/
theorem not_break_of_mem_toList {text line : List Char} (h : line ∈ (ofText text).toList) :
    ∀ c ∈ line, c ≠ '\n' ∧ c ≠ '\r' := by
  induction text generalizing line with
  | nil =>
      simp [toList] at h
      simp [h]
  | cons c cs ih =>
      rw [ofText_cons] at h
      unfold cons at h
      split at h
      · simp only [toList, List.mem_cons, List.map_cons] at h
        rcases h with rfl | h
        · simp
        · exact ih (by simpa [toList] using h)
      · next hn =>
          split at h
          · split at h
            · next heq =>
                simp only [toList, List.mem_cons, List.map_cons] at h
                rcases h with rfl | h
                · simp
                · exact ih (by simpa [toList, heq] using Or.inr h)
            · next heq =>
                simp only [toList, List.mem_cons, List.map_cons] at h
                rcases h with rfl | h
                · simp
                · exact ih (by simpa [toList, heq] using h)
          · next hr =>
              simp only [toList, List.mem_cons] at h
              rcases h with rfl | h
              · intro d hd
                rcases List.mem_cons.mp hd with rfl | hd
                · exact ⟨hn, hr⟩
                · exact ih (by simp [toList]) d hd
              · exact ih (by simpa [toList] using Or.inr h)

end Lines

end FacetQuery.Selection

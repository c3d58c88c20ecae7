import FacetQuery.Event

/-!
# `FacetQuery.Selection.Statement` — what a line of a selection says

A statement is a basic facet line or one of the three `variable[...]` forms. `Statement.events` is the
table that turns a statement into its part of the event stream; every part ends in `stop`.

The alphabet of the line grammar stands here as well: words, blanks, and the separators of a value list.
-/

namespace FacetQuery.Selection

/-! ## Alphabet -/

/-- The characters of names and values: ASCII letters and digits, `_`, `-` and `*`. -/
def isWordChar (c : Char) : Bool := c.isAlphanum || c == '_' || c == '-' || c == '*'

/-- The characters that may surround brackets and `=`. -/
def isBlank (c : Char) : Bool := c == ' ' || c == '\t'

/-- The characters that separate the values of a list; a line break never does. -/
def isSeparator (c : Char) : Bool := isBlank c || c == ','

/-- The word that opens the bracketed forms. -/
def variableChars : List Char := ['v', 'a', 'r', 'i', 'a', 'b', 'l', 'e']

theorem isSeparator_of_isBlank {c : Char} (h : isBlank c = true) : isSeparator c = true := by
  simp [isSeparator, h]

theorem isWordChar_eq_false_of_isSeparator {c : Char} (h : isSeparator c = true) :
    isWordChar c = false := by
  simp only [isSeparator, isBlank, Bool.or_eq_true, beq_iff_eq] at h
  rcases h with (rfl | rfl) | rfl <;> decide

/-! ## Statements -/

/-- One statement of a selection. -/
inductive Statement where
  /-- The line `name=v1,v2`. -/
  | basic (name : String) (values : List String)
  /-- The line `variable[frequency]=v1,v2`. -/
  | byFrequency (frequency : String) (values : List String)
  /-- The line `variable[name=value]=v1,v2`. -/
  | byScope (name value : String) (values : List String)
  /-- The line `variable[realm][frequency]=v1,v2`. -/
  | byRealm (realm frequency : String) (values : List String)
  deriving DecidableEq, Inhabited

/-- The events that stand for a statement. -/
def Statement.events : Statement → List Event
  | basic n vs => .name n :: vs.map .value ++ [.stop]
  | byFrequency f vs => .frequency f :: vs.map .value ++ [.variableStop, .stop]
  | byScope n v vs => .name n :: .value v :: .requestStop :: vs.map .value ++ [.variableStop, .stop]
  | byRealm r f vs => .realm r :: .frequency f :: vs.map .value ++ [.variableStop, .stop]

/-- No statement stands for a `null` event. -/
theorem Statement.null_not_mem_events (s : Statement) : Event.null ∉ s.events := by
  cases s <;> simp [events]

end FacetQuery.Selection

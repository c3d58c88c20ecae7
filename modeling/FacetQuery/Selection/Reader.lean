import FacetQuery.Selection.Attempt
import FacetQuery.Selection.Statement

/-!
# `FacetQuery.Selection.Reader` — reading one line

The grammar of a line, as readers that take characters off the front of it. Alternatives are tried in
order and the first that fits is kept; a run of blanks, separators or word characters is taken whole.
While reading, every named rule that fails is put on record (`Attempts`); the record never changes what
is read, it only says where a line that fits no form got stuck.

## Contents
- `Cursor`, a place in a line, and `Reader`, with sequence, ordered choice and `tracked` rules.
- The pieces: `skip`, `symbol`, `keyword`, `word`, `values`.
- The four statement forms, and `readLine`, which judges a whole line.
-/

namespace FacetQuery.Selection

/-! ## Places -/

/-- A place in a line: how many characters are passed, and which follow. -/
structure Cursor where
  passed : Nat
  rest : List Char
  deriving DecidableEq, Inhabited

namespace Cursor

/-- Passes the run of characters in the class that stands here. -/
def passWhile (c : Cursor) (inClass : Char → Bool) : Cursor :=
  ⟨c.passed + (c.rest.takeWhile inClass).length, c.rest.dropWhile inClass⟩

theorem length_passWhile_le (c : Cursor) (inClass : Char → Bool) :
    (c.passWhile inClass).rest.length ≤ c.rest.length :=
  (List.dropWhile_suffix inClass).length_le

/-- Passing a run that is not empty comes nearer to the end of the line. -/
theorem length_passWhile_lt {c : Cursor} {inClass : Char → Bool}
    (h : c.rest.takeWhile inClass ≠ []) :
    (c.passWhile inClass).rest.length < c.rest.length := by
  have hsplit : (c.rest.takeWhile inClass).length + (c.rest.dropWhile inClass).length
      = c.rest.length := by
    rw [← List.length_append, List.takeWhile_append_dropWhile]
  have hpos : 0 < (c.rest.takeWhile inClass).length := List.length_pos_iff.mpr h
  simp only [passWhile]
  omega

end Cursor

/-! ## Readers -/

/-- Reads at a place, with the failures so far: what was read and where reading goes on, or nothing,
    and the failures then. -/
def Reader (α : Type) : Type := Cursor → Attempts → Option (α × Cursor) × Attempts

namespace Reader

instance : Monad Reader where
  pure a := fun c tried => (some (a, c), tried)
  bind x f := fun c tried =>
    match x c tried with
    | (some (a, d), tried') => f a d tried'
    | (none, tried') => (none, tried')

/-- Reads with the first of the two that fits; what the other failed on stays on record. -/
def orElse {α : Type} (x y : Reader α) : Reader α := fun c tried =>
  match x c tried with
  | (some r, tried') => (some r, tried')
  | (none, tried') => y c tried'

/-- Reads as `x` does, under the name of a rule. -/
def tracked {α : Type} (r : Rule) (x : Reader α) : Reader α := fun c tried =>
  match x c tried with
  | (some res, tried') => (some res, tried')
  | (none, tried') => (none, tried'.fail r c.passed (tried.countAt c.passed))

/-- Passes a run of characters in the class; an empty run will do. -/
def skip (inClass : Char → Bool) : Reader Unit := fun c tried =>
  (some ((), c.passWhile inClass), tried)

/-- Passes the characters of `text`. -/
def keyword : List Char → Reader Unit
  | [] => pure ()
  | k :: ks => fun c tried =>
      match c.rest with
      | x :: xs => if x = k then keyword ks ⟨c.passed + 1, xs⟩ tried else (none, tried)
      | [] => (none, tried)

/-- Passes `k` with the blanks around it. -/
def symbol (k : Char) : Reader Unit := do
  skip isBlank
  keyword [k]
  skip isBlank

/-- Reads a word that stands for the rule `r`. -/
def word (r : Rule) : Reader String := fun c tried =>
  match c.rest.takeWhile isWordChar with
  | [] => (none, tried.fail r c.passed (tried.countAt c.passed))
  | w => (some (String.ofList w, c.passWhile isWordChar), tried)

/-- Reads the further values of a list, each after at least one separator, up to where no value
    follows the separators. -/
def moreValues (c : Cursor) (tried : Attempts) : (List String × Cursor) × Attempts :=
  if c.rest.takeWhile isSeparator = [] then (([], c), tried)
  else
    if h : (c.passWhile isSeparator).rest.takeWhile isWordChar = [] then
      (([], c), (word .value (c.passWhile isSeparator) tried).2)
    else
      have : ((c.passWhile isSeparator).passWhile isWordChar).rest.length < c.rest.length :=
        Nat.lt_of_lt_of_le (Cursor.length_passWhile_lt h) (c.length_passWhile_le isSeparator)
      let ((vs, d), tried') := moreValues ((c.passWhile isSeparator).passWhile isWordChar) tried
      ((String.ofList ((c.passWhile isSeparator).rest.takeWhile isWordChar) :: vs, d), tried')
termination_by c.rest.length

/-- Reads one or more values with separators before, between and after them. -/
def values : Reader (List String) := do
  skip isSeparator
  let first ← word .value
  let others ← fun c tried => let (r, tried') := moreValues c tried; (some r, tried')
  skip isSeparator
  pure (first :: others)

/-! ## The forms of a statement -/

/-- The word that opens every `variable[...]` form, with the blanks after it. -/
def variableWord : Reader Unit := do
  keyword variableChars
  skip isBlank

/-- Reads `variable[realm][frequency]=values`. -/
def variableDouble : Reader Statement := tracked .variableDouble do
  variableWord
  symbol '['
  let realm ← word .realm
  symbol ']'
  symbol '['
  let frequency ← word .frequency
  symbol ']'
  symbol '='
  return .byRealm realm frequency (← values)

/-- Reads `name=value` inside brackets. -/
def scope : Reader (String × String) := tracked .scope do
  let name ← word .name
  symbol '='
  return (name, ← word .value)

/-- Reads `variable[name=value]=values`. -/
def variableScoped : Reader Statement := tracked .variableScoped do
  variableWord
  symbol '['
  let (name, value) ← scope
  symbol ']'
  symbol '='
  return .byScope name value (← values)

/-- Reads `variable[frequency]=values`. -/
def variableFrequency : Reader Statement := tracked .variableFrequency do
  variableWord
  symbol '['
  let frequency ← word .frequency
  symbol ']'
  symbol '='
  return .byFrequency frequency (← values)

/-- Reads `name=values`. -/
def basic : Reader Statement := tracked .facet do
  let name ← word .name
  symbol '='
  return .basic name (← values)

/-- Reads a statement in the first of the four forms that fits. -/
def statement : Reader Statement :=
  orElse variableDouble (orElse variableScoped (orElse variableFrequency basic))

end Reader

/-! ## Lines -/

/-- Judges a line without its break: the statement it makes, or none if it is blank or a comment, or
    the failures on which it is stuck, counted from its start. A line is stuck as well where it goes on
    after its statement; either way the end of the text is one more thing that would have fitted. -/
def readLine (line : List Char) : Except Attempts (Option Statement) :=
  let start := Cursor.passWhile ⟨0, line⟩ isBlank
  match start.rest with
  | [] => .ok none
  | '#' :: _ => .ok none
  | _ =>
      match Reader.statement start .empty with
      | (some (s, ⟨_, []⟩), _) => .ok (some s)
      | (some (_, d), tried) => .error (tried.fail .endOfInput d.passed (tried.countAt d.passed))
      | (none, tried) => .error (tried.fail .endOfInput start.passed (tried.countAt start.passed))

end FacetQuery.Selection

import FacetQuery.Settings.Value
import FacetQuery.Text.Blank

/-!
# `FacetQuery.Settings.KeyPath` — the place of a value among the settings

A key names a setting, and perhaps a place inside its value: `.name` goes into a table and `[3]` into a
list, where a negative number counts from the end. Putting a value at a place makes the containers that
are missing on the way.
-/

namespace FacetQuery

/-- A step into a value. -/
inductive KeyStep where
  | key (name : String)
  | index (i : Int)
  deriving DecidableEq, Inhabited

/-- A place among the settings. -/
structure KeyPath where
  root : String
  steps : List KeyStep
  deriving DecidableEq, Inhabited

namespace KeyPath

/-! ## Reading a key -/

/-- The characters of a name in a key. -/
def isKeyChar (c : Char) : Bool := c.isAlphanum || c == '_' || c == '-'

/-- Reads a number in brackets: digits and perhaps a minus sign, with spaces and tabs around. -/
def index? (inside : List Char) : Option Int :=
  match Text.trim (fun c => c == ' ' || c == '\t') inside with
  | '+' :: _ => none
  | cs => int64? cs

/-- Reads the steps after the first name; every step takes at least one character, which `fuel`
    counts. -/
def steps? : Nat → List Char → Option (List KeyStep)
  | _, [] => some []
  | 0, _ => none
  | fuel + 1, '.' :: r =>
      match r.takeWhile isKeyChar with
      | [] => none
      | name => (steps? fuel (r.dropWhile isKeyChar)).map (.key (String.ofList name) :: ·)
  | fuel + 1, '[' :: r =>
      match r.dropWhile (· ≠ ']') with
      | ']' :: rest => do
          let i ← index? (r.takeWhile (· ≠ ']'))
          return .index i :: (← steps? fuel rest)
      | _ => none
  | _, _ => none

/-- The place that a key names. -/
def ofString? (key : String) : Option KeyPath :=
  let cs := key.toList
  match cs.takeWhile isKeyChar with
  | [] => none
  | name => (steps? cs.length (cs.dropWhile isKeyChar)).map fun ss => ⟨String.ofList name, ss⟩

/-- The place of the setting with this very name. -/
def ofName (name : String) : KeyPath := ⟨name, []⟩

/-! ## Putting a value -/

/-- The list, and the place in it that `i` means: a list that is too short is filled up with `nil`, at its
    end for a number from the start and at its start for a number from the end. -/
def widen (vs : List SettingValue) (i : Int) : List SettingValue × Nat :=
  if 0 ≤ i then (vs ++ List.replicate (i.natAbs + 1 - vs.length) .nil, i.natAbs)
  else if i.natAbs ≤ vs.length then (vs, vs.length - i.natAbs)
  else (List.replicate (i.natAbs - vs.length) .nil ++ vs, 0)

/-- The value after what stands at the end of the steps was changed by `f`. -/
def alter (f : SettingValue → SettingValue) : List KeyStep → SettingValue → SettingValue
  | [], v => f v
  | .key k :: ss, v => .table (SettingValue.put k (alter f ss (SettingValue.get k v.members)) v.members)
  | .index i :: ss, v =>
      let (vs, n) := widen v.items i
      .list (vs.modify n (alter f ss))

/-- The settings with a value put over what stands at a place. -/
def put (p : KeyPath) (v : SettingValue) (ms : List (String × SettingValue)) :
    List (String × SettingValue) :=
  SettingValue.put p.root (alter (·.merge v) p.steps (SettingValue.get p.root ms)) ms

end KeyPath

end FacetQuery

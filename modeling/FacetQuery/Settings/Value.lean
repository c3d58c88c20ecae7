import FacetQuery.Number.Binary64
import FacetQuery.Query.Rendering

/-!
# `FacetQuery.Settings.Value` — values of settings before they have a type

What a layer gives for a setting is one of a few kinds of value, whatever the layer is. A value is turned
into what the setting holds only at the very end, and only the value that decides the setting is; the
conversions here are forgiving: a number will do for a text, a word for a truth value, and so on.
-/

namespace FacetQuery

/-- A value that a layer gives. -/
inductive SettingValue where
  | nil
  | bool (b : Bool)
  | integer (i : Int)
  | float (x : Binary64)
  | text (s : String)
  | list (items : List SettingValue)
  | table (members : List (String × SettingValue))
  deriving Inhabited

namespace SettingValue

/-! ## Tables and lists -/

/-- The members of a table; a value of any other kind counts as an empty one. -/
def members : SettingValue → List (String × SettingValue)
  | table ms => ms
  | _ => []

/-- The items of a list; a value of any other kind counts as an empty one. -/
def items : SettingValue → List SettingValue
  | list vs => vs
  | _ => []

/-- What a table holds under a key; `nil` if there is no such key. -/
def get (key : String) (ms : List (String × SettingValue)) : SettingValue := (ms.lookup key).getD nil

/-- A table with a value under a key: in place of what was there, or at the end. -/
def put (key : String) (v : SettingValue) :
    List (String × SettingValue) → List (String × SettingValue)
  | [] => [(key, v)]
  | (k, w) :: ms => if k = key then (k, v) :: ms else (k, w) :: put key v ms

theorem lookup_put (key : String) (v : SettingValue) (ms : List (String × SettingValue))
    (other : String) :
    (put key v ms).lookup other = if other = key then some v else ms.lookup other := by
  induction ms with
  | nil =>
      by_cases h : other = key
      · simp [put, h]
      · have : (other == key) = false := by simp [h]
        simp [put, h, List.lookup_cons, this]
  | cons m ms ih =>
      obtain ⟨k, w⟩ := m
      unfold put
      by_cases hk : k = key
      · subst hk
        by_cases h : other = k
        · simp [h]
        · have : (other == k) = false := by simp [h]
          simp [h, List.lookup_cons, this]
      · simp only [hk, if_false, List.lookup_cons, ih]
        by_cases h : other = k
        · subst h
          simp [hk]
        · have : (other == k) = false := by simp [h]
          simp [this]

mutual

/-- The value that a place holds after `new` was put over `old`: tables are merged key by key, and
    anything else replaces what was there. -/
def merge (old : SettingValue) : SettingValue → SettingValue
  | table incoming => table (mergeMembers old.members incoming)
  | nil => nil
  | bool b => bool b
  | integer i => integer i
  | float x => float x
  | text s => text s
  | list vs => list vs

/-- A table after members were merged into it one by one. -/
def mergeMembers (ms : List (String × SettingValue)) :
    List (String × SettingValue) → List (String × SettingValue)
  | [] => ms
  | (k, v) :: more => mergeMembers (put k (merge (get k ms) v) ms) more

end

/-! ## Conversions -/

/-- The value as a text. -/
def asText? : SettingValue → Option String
  | bool b => some (if b then "true" else "false")
  | integer i => some (toString i)
  | float x => some x.shown
  | text s => some s
  | nil | list _ | table _ => none

/-- The value as a text that may be missing. -/
def asOptionalText? : SettingValue → Option (Option String)
  | nil => some none
  | v => v.asText?.map some

/-- The value as a list of texts. -/
def asTexts? : SettingValue → Option (List String)
  | list vs => vs.mapM asText?
  | _ => none

/-- The value as a truth value: a number that is not zero, or one of the usual words in any case. -/
def asBool? : SettingValue → Option Bool
  | bool b => some b
  | integer i => some (i ≠ 0)
  | float x => some (!x.isZero)
  | text s =>
      let word := s.toLower
      if ["1", "true", "on", "yes"].contains word then some true
      else if ["0", "false", "off", "no"].contains word then some false
      else none
  | nil | list _ | table _ => none

/-- The value as a count that an unsigned word of 64 bits holds. -/
def asCount? : SettingValue → Option Nat
  | bool b => some (if b then 1 else 0)
  | integer i => if fitsUInt64 i then some i.natAbs else none
  | float x => some x.toUInt64
  | text s =>
      let word := s.toLower
      if ["true", "on", "yes"].contains word then some 1
      else if ["false", "off", "no"].contains word then some 0
      else uint64? s.toList
  | nil | list _ | table _ => none

/-- The value as a format: its word, or a table with the word as its only key. -/
def asFormat? : SettingValue → Option Format
  | text s => Format.ofLabel? s
  | table [(k, _)] => Format.ofLabel? k
  | _ => none

end SettingValue

end FacetQuery

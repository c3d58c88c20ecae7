import FacetQuery.Number.Decimal

/-!
# `FacetQuery.Json.Value` — JSON values

A JSON value as the reader finds it. Two things that other representations lose are kept: whether a
number was written as an integer, and that a string may name a code unit that no text can hold.
-/

namespace FacetQuery

namespace Json

/-- What a string literal stands for: a text, or nothing if one of its escapes names half of a
    surrogate pair without the other half. -/
abbrev Literal := Option String

end Json

/-- A JSON value. The members of an object are in the order written, repeated keys included. -/
inductive Json where
  | null
  | bool (b : Bool)
  /-- A number without fraction and exponent. -/
  | integer (negative : Bool) (magnitude : Nat)
  /-- A number with a fraction or an exponent. -/
  | decimal (d : Decimal)
  | text (s : Json.Literal)
  | array (items : List Json)
  | object (members : List (Json.Literal × Json))
  deriving Inhabited

namespace Json

/-- The string value that stands for a text. -/
def ofString (s : String) : Json := .text (some s)

/-- The text of a string value that stands for one. -/
def asString? : Json → Option String
  | .text s => s
  | _ => none

/-- The items of an array. -/
def asArray? : Json → Option (List Json)
  | .array items => some items
  | _ => none

@[simp] theorem asString?_ofString (s : String) : (ofString s).asString? = some s := rfl

/-! ## Records -/

/-- The values given for a field among the members of an object. -/
def given (field : String) (members : List (Literal × Json)) : List Json :=
  (members.filter (·.1 == some field)).map (·.2)

/-- The value of a field, if it is given at most once. -/
def single (field : String) (members : List (Literal × Json)) : Option (Option Json) :=
  match given field members with
  | [] => some none
  | [v] => some (some v)
  | _ => none

/-- The values of the fields of a record, in the order of `names`, with none for a field that is not
    given. A record is an object whose keys are texts and which gives each field at most once, or the
    array of its fields in order, from which fields at the end may be missing. Members that are no
    fields are passed over. -/
def fields? (names : List String) : Json → Option (List (Option Json))
  | .object members =>
      if members.all (·.1.isSome) then names.mapM (single · members) else none
  | .array items =>
      if items.length ≤ names.length then
        some (items.map some ++ List.replicate (names.length - items.length) none)
      else none
  | _ => none

end Json

end FacetQuery

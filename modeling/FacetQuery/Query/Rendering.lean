import FacetQuery.Query.JsonForm
import FacetQuery.Query.Layout

/-!
# `FacetQuery.Query.Rendering` — the artifact that a query is turned into

A query is rendered as indented text or as JSON; an empty query has no rendering in either format.
-/

namespace FacetQuery

/-- How a query is written out. -/
inductive Format where
  | text | json
  deriving DecidableEq, Inhabited

namespace Format

/-- The word for a format. -/
def label : Format → String
  | text => "text"
  | json => "json"

/-- The file extension that goes with a format. -/
def extension : Format → String
  | text => "yaml"
  | json => "json"

/-- The format with exactly this word. -/
def ofLabel? : String → Option Format
  | "text" => some text
  | "json" => some json
  | _ => none

/-- The format that a user names, in capital or small ASCII letters. -/
def ofString? (s : String) : Option Format := ofLabel? s.toLower

/-- What a user is told who names no format. -/
def unknownMessage (s : String) : String :=
  "unknown format '" ++ s.toLower ++ "', expected 'text' or 'json'"

@[simp] theorem ofLabel?_label (f : Format) : ofLabel? f.label = some f := by
  cases f <;> rfl

end Format

namespace Query

/-- The query in a format, whether or not it is empty. -/
def written (q : Query) : Format → String
  | .text => q.layout
  | .json => q.toJson.pretty ++ "\n"

/-- The artifact for a query; none if it is empty. -/
def render (q : Query) (f : Format) : Option String :=
  if q.isEmpty then none else some (q.written f)

theorem render_eq_none_iff {q : Query} {f : Format} : q.render f = none ↔ q = empty := by
  simp [render]

end Query

end FacetQuery

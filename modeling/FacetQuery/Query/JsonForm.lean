import FacetQuery.Json.Printer
import FacetQuery.Json.Reader
import FacetQuery.Query

/-!
# `FacetQuery.Query.JsonForm` — queries as JSON

A facet and a query are records; a request is the bare array of its facets. Reading accepts a record in
either of its two shapes, as an object or as the array of all its fields, and asks for every field.
-/

namespace FacetQuery

/-- The facet as an object. -/
def Facet.toJson (f : Facet) : Json :=
  .object [(some "name", .ofString f.name), (some "values", .array (f.values.map .ofString))]

/-- The query as an object. -/
def Query.toJson (q : Query) : Json :=
  .object
    [(some "facets", .array (q.facets.map Facet.toJson)),
      (some "requests", .array (q.requests.map fun r => .array (r.map Facet.toJson)))]

/-- The facet that a record stands for. -/
def Facet.ofJson? (j : Json) : Option Facet := do
  match ← j.fields? ["name", "values"] with
  | [some name, some values] =>
      return ⟨← name.asString?, ← (← values.asArray?).mapM Json.asString?⟩
  | _ => none

/-- The request that an array of facets stands for. -/
def Request.ofJson? (j : Json) : Option Request := do
  (← j.asArray?).mapM Facet.ofJson?

/-- The query that a record stands for. -/
def Query.ofJson? (j : Json) : Option Query := do
  match ← j.fields? ["facets", "requests"] with
  | [some facets, some requests] =>
      return ⟨← (← facets.asArray?).mapM Facet.ofJson?, ← (← requests.asArray?).mapM Request.ofJson?⟩
  | _ => none

/-- The query that a JSON text writes. -/
def Query.parse? (s : String) : Option Query := do
  Query.ofJson? (← Json.parse? s)

end FacetQuery

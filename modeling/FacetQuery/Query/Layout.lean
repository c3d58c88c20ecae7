import FacetQuery.Query

/-!
# `FacetQuery.Query.Layout` — the indented text form of a query

Root facets come first, one on a line. A line `requests:` follows if there are requests; each request is
headed by its first facet, indented by two spaces, with its other facets indented by four. A request
without facets has no line.
-/

namespace FacetQuery

/-- The facet as `name: "v1,v2"`. -/
def Facet.shown (f : Facet) : String := f.name ++ ": \"" ++ String.intercalate "," f.values ++ "\""

/-- The lines of a request. -/
def Request.lines : Request → List String
  | [] => []
  | head :: rest => ("  " ++ head.shown) :: rest.map fun f => "    " ++ f.shown

/-- The lines of a query. -/
def Query.lines (q : Query) : List String :=
  q.facets.map Facet.shown ++
    if q.requests.isEmpty then [] else "requests:" :: q.requests.flatMap Request.lines

/-- The text form of a query: its lines, each ended by `\n`. -/
def Query.layout (q : Query) : String := String.join (q.lines.map (· ++ "\n"))

end FacetQuery

import FacetQuery.Fault
import FacetQuery.Query.Cmip6
import FacetQuery.Query.Rendering

/-!
# `FacetQuery.Conversion` — the conversion of one selection, step by step

A conversion is taken through `parse`, `translate`, `postprocess` and `render`. Its stage says how far
it has come; a step that is out of order is refused and leaves the conversion as it was. Parsing starts
afresh whatever went before, so nothing of an earlier text is left over.

The three public parts besides the path — whether the last step succeeded, the event stream and the
query — may also be set from outside; the stage may not.
-/

namespace FacetQuery

/-- How far a conversion has come. -/
inductive Stage where
  /-- No text was parsed yet. -/
  | fresh
  /-- A text was parsed, well or not, and not translated since. -/
  | parsed
  /-- The stream was translated, and not post-processed since. -/
  | translated
  /-- The query was post-processed. -/
  | postprocessed
  deriving DecidableEq, Inhabited

namespace Stage

/-- Whether a text was parsed. -/
def hasText : Stage → Bool
  | fresh => false
  | parsed | translated | postprocessed => true

/-- Whether the stream was translated. -/
def hasQuery : Stage → Bool
  | fresh | parsed => false
  | translated | postprocessed => true

end Stage

/-- The working state for one selection. -/
structure Conversion where
  path : Path
  success : Bool
  events : List Event
  query : Query
  stage : Stage
  deriving DecidableEq, Inhabited

namespace Conversion

/-- A conversion that has done nothing yet. -/
def start (path : Path) : Conversion := ⟨path, false, [], .empty, .fresh⟩

/-- Reads the text, in place of all that was known before. On a mismatch the conversion is marked failed
    and holds no events. -/
def parse (c : Conversion) (text : String) : Logged (Except Fault Unit × Conversion) :=
  match Selection.statements text.toList with
  | .ok ss =>
      let es := Selection.eventsOf ss
      ⟨(.ok (), { c with success := true, events := es, query := .empty, stage := .parsed }),
        [⟨.debug, .grammar, "tokenized selection",
          [("statements", toString ss.length), ("nodes", toString es.length)]⟩]⟩
  | .error m =>
      ⟨(.error (.grammar m),
        { c with success := false, events := [], query := .empty, stage := .parsed }), []⟩

/-- Builds the query from the events of the last parsed text. -/
def translate (c : Conversion) (excluded : Exclusions) : Logged (Except Fault Query × Conversion) :=
  if c.stage.hasText ∧ c.success then
    let log := Assembly.trail Text.quoted excluded (.idle .empty) 0 c.events
    match build excluded c.events with
    | .ok q => ⟨(.ok q, { c with query := q, stage := .translated }), log⟩
    | .error v =>
        ⟨(.error (.invariant (.stream v)),
          { c with success := false, query := .empty, stage := .parsed }), log⟩
  else ⟨(.error (.invariant (.notParsed c.path)), c), []⟩

/-- Gives the facets their CMIP6 names if the query targets CMIP6, at most once after each `translate`;
    returns whether it did. -/
def postprocess (c : Conversion) : Logged (Except Fault Bool × Conversion) :=
  if c.stage.hasQuery ∧ c.success then
    if c.stage = .postprocessed then ⟨(.ok false, c), []⟩
    else
      let (applied, q) := c.query.postprocess
      ⟨(.ok applied, { c with query := q, stage := .postprocessed }),
        if applied then
          [⟨.debug, .translate, "applied CMIP6 facet names", [("path", c.path.text)]⟩]
        else []⟩
  else ⟨(.error (.invariant (.notTranslated c.path)), c), []⟩

/-- Renders the query; an empty one has no rendering. -/
def render (c : Conversion) (f : Format) : Except Fault String :=
  if c.stage.hasQuery ∧ c.success then
    match c.query.render f with
    | some s => .ok s
    | none => .error .emptyResult
  else .error (.invariant (.notTranslated c.path))

/-- Takes a text through all steps; the first fault ends it. -/
def process (c : Conversion) (text : String) (excluded : Exclusions) (f : Format) :
    Logged (Except Fault String × Conversion) := do
  match ← c.parse text with
  | (.error e, c) => return (.error e, c)
  | (.ok _, c) =>
      match ← c.translate excluded with
      | (.error e, c) => return (.error e, c)
      | (.ok _, c) =>
          match ← c.postprocess with
          | (.error e, c) => return (.error e, c)
          | (.ok _, c) => return (c.render f, c)

end Conversion

end FacetQuery

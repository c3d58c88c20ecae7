import FacetQuery.Event
import FacetQuery.Log
import FacetQuery.Query
import FacetQuery.Selection.Statement

/-!
# `FacetQuery.Query.Assembly` — building a query from the event stream

One facet accumulator and one request buffer are carried over the stream; every `stop` commits the
buffered request or else the accumulated facet. An excluded name empties the accumulator at once, so
later values gather under no name and are dropped when the line ends.

Whether a stream can be built at all is decided by two checks: it holds no `null`, and nothing is left
uncommitted at its end. The state itself is a plain fold, so what a stream builds from a state is what
its second part builds from where its first part ended (`run_append`).

## Contents
- `Assembly`, its `step` and `run`; `build`, which adds the two checks.
- `Violation`, the reasons for which a stream is refused.
- `trail`, the events that building reports, and the notice on repeated values.
- `Statement.facets` and `Statement.requests`, what a line contributes to the query.
-/

namespace FacetQuery

/-- Names of facets to drop. -/
abbrev Exclusions := List String

/-- Why a stream makes no query. -/
inductive Violation where
  /-- The event at this place, counted from one, is `null`; the stream has so many events. -/
  | nullEvent (place total : Nat)
  /-- Something was still uncommitted when the stream ended. -/
  | unterminated
  deriving DecidableEq, Inhabited

/-- The query built so far, with the facet and the request in progress. -/
structure Assembly where
  facet : Facet
  request : Request
  query : Query
  deriving DecidableEq, Inhabited

namespace Assembly

/-- Nothing in progress on top of `q`. -/
def idle (q : Query) : Assembly := ⟨.blank, [], q⟩

/-- Adds a facet to the request in progress. -/
def push (a : Assembly) (f : Facet) : Assembly := { a with request := a.request ++ [f] }

/-- Empties the facet in progress. -/
def reset (a : Assembly) : Assembly := { a with facet := .blank }

/-- Ends a line: commits the request in progress, or else the facet in progress if it has a name. -/
def commit (a : Assembly) : Assembly :=
  if a.request ≠ [] then
    idle { a.query with requests := a.query.requests ++ [a.request] }
  else if a.facet.name ≠ "" then
    idle { a.query with facets := a.query.facets ++ [a.facet] }
  else idle a.query

/-- The state after one event. -/
def step (excluded : Exclusions) (a : Assembly) : Event → Assembly
  | .null => a
  | .stop => a.commit
  | .requestStop => (if a.facet.name ≠ "" then a.push a.facet else a).reset
  | .name n => if n ∈ excluded then a.reset else { a with facet.name := n }
  | .value v => { a with facet.values := a.facet.values ++ [v] }
  | .realm r => a.push ⟨"realm", [r]⟩
  | .frequency f => a.push ⟨"frequency", [f]⟩
  | .variableStop => (a.push ⟨"variable", a.facet.values⟩).reset

/-- The state after a stream. -/
def run (excluded : Exclusions) (a : Assembly) (es : List Event) : Assembly :=
  es.foldl (step excluded) a

/-- Whether nothing is in progress. -/
def settled (a : Assembly) : Bool :=
  a.request.isEmpty && a.facet.name.isEmpty && a.facet.values.isEmpty

@[simp] theorem run_nil (x : Exclusions) (a : Assembly) : run x a [] = a := rfl

@[simp] theorem run_cons (x : Exclusions) (a : Assembly) (e : Event) (es : List Event) :
    run x a (e :: es) = run x (step x a e) es := rfl

/-- Building a stream in two parts is building it at once. -/
theorem run_append (x : Exclusions) (a : Assembly) (es fs : List Event) :
    run x a (es ++ fs) = run x (run x a es) fs := List.foldl_append

/-- A state with nothing in progress is idle on its query. -/
theorem settled_iff {a : Assembly} : a.settled = true ↔ a = idle a.query := by
  obtain ⟨⟨n, vs⟩, r, q⟩ := a
  simp [settled, idle, Facet.blank, and_assoc, and_comm, and_left_comm]

@[simp] theorem settled_idle (q : Query) : (idle q).settled = true := by
  simp [settled, idle, Facet.blank]

end Assembly

/-- The query that a stream builds, unless it holds a `null` or leaves something uncommitted. -/
def build (excluded : Exclusions) (es : List Event) : Except Violation Query :=
  match es.findIdx? (· == .null) with
  | some k => .error (.nullEvent (k + 1) es.length)
  | none =>
      let a := Assembly.run excluded (.idle .empty) es
      if a.settled then .ok a.query else .error .unterminated

/-! ## What building reports -/

/-- The list as a reader of the log sees it; `quote` writes one member. -/
def bracketed (quote : String → String) (vs : List String) : String :=
  "[" ++ String.intercalate ", " (vs.map quote) ++ "]"

namespace Assembly

/-- The notice on a facet with repeated values; none if all its values differ. -/
def repeatNotice (quote : String → String) (f : Facet) : Log :=
  if f.duplicates.isEmpty then []
  else
    [⟨.warn, .translate, "duplicate values",
      [("facet", f.name), ("duplicates", bracketed quote f.duplicates)]⟩]

/-- What is reported when an event meets a state. -/
def notices (quote : String → String) (excluded : Exclusions) (a : Assembly) : Event → Log
  | .name n => if n ∈ excluded then [⟨.debug, .translate, "excluded facet", [("facet", n)]⟩] else []
  | .requestStop => if a.facet.name ≠ "" then repeatNotice quote a.facet else []
  | .variableStop => repeatNotice quote ⟨"variable", a.facet.values⟩
  | .stop =>
      if a.request = [] ∧ a.facet.name ≠ "" then repeatNotice quote a.facet else []
  | .null | .value _ | .realm _ | .frequency _ => []

/-- Everything that is reported while a stream is built, up to its first `null`; `place` events were
    passed before. -/
def trail (quote : String → String) (excluded : Exclusions) (a : Assembly) (place : Nat) :
    List Event → Log
  | [] => []
  | e :: es =>
      ⟨.trace, .translate, "step", [("cursor", toString place), ("node", e.shown)]⟩
        :: (notices quote excluded a e ++
          if e = .null then [] else trail quote excluded (step excluded a e) (place + 1) es)

end Assembly

/-! ## What a statement contributes -/

namespace Selection.Statement

/-- The root facets that a statement contributes: one for a basic line whose name is not excluded. -/
def facets (excluded : Exclusions) : Statement → List Facet
  | basic n vs => if n ∈ excluded then [] else [⟨n, vs⟩]
  | byFrequency .. | byScope .. | byRealm .. => []

/-- The requests that a statement contributes: one for a `variable[...]` line. An excluded scope name
    takes its value with it. -/
def requests (excluded : Exclusions) : Statement → List Request
  | basic .. => []
  | byFrequency f vs => [[⟨"frequency", [f]⟩, ⟨"variable", vs⟩]]
  | byScope n v vs =>
      if n ∈ excluded then [[⟨"variable", vs⟩]] else [[⟨n, [v]⟩, ⟨"variable", vs⟩]]
  | byRealm r f vs => [[⟨"realm", [r]⟩, ⟨"frequency", [f]⟩, ⟨"variable", vs⟩]]

end Selection.Statement

end FacetQuery

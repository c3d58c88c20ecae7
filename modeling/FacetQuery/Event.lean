/-!
# `FacetQuery.Event` — the flat stream between text and query

A selection is read into a flat stream of events that has no tree structure of its own; the two levels
of a query are recovered from the places of `stop` and `requestStop` alone.
-/

namespace FacetQuery

/-- One event of the stream. -/
inductive Event where
  /-- Stands for no event; reading text never produces it, and no query is built from it. -/
  | null
  /-- Ends a line. -/
  | stop
  /-- Ends the `[name=value]` term that scopes a request. -/
  | requestStop
  | name (text : String)
  | value (text : String)
  | realm (text : String)
  | frequency (text : String)
  /-- Closes the values of a `variable[...]` line. -/
  | variableStop
  deriving DecidableEq, Inhabited

/-- The event as a trace line shows it. -/
def Event.shown : Event → String
  | null => "Null"
  | stop => "Stop"
  | requestStop => "RequestStop"
  | name s => "Name(" ++ s ++ ")"
  | value s => "Value(" ++ s ++ ")"
  | realm s => "Realm(" ++ s ++ ")"
  | frequency s => "Frequency(" ++ s ++ ")"
  | variableStop => "Variable"

end FacetQuery

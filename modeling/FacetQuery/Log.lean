/-!
# `FacetQuery.Log` — what an operation reports besides its result

An operation that has something to tell returns it as a list of `LogEvent`s next to its result, in the
order in which they happen. `Logged α` is a result with its log, and its `bind` appends logs, so the
log of a sequence of operations is the concatenation of their logs (`log_bind`).
-/

namespace FacetQuery

/-- How severe an event is, the most severe first. -/
inductive Level where
  | error | warn | info | debug | trace
  deriving DecidableEq, Inhabited

namespace Level

/-- Zero for the most severe level, growing with the detail. -/
def rank : Level → Nat
  | error => 0
  | warn => 1
  | info => 2
  | debug => 3
  | trace => 4

/-- The level as it stands at the head of a log line. -/
def label : Level → String
  | error => "ERROR"
  | warn => "WARN"
  | info => "INFO"
  | debug => "DEBUG"
  | trace => "TRACE"

/-- Whether a reader who asks for `limit` sees events of this level. -/
def shownAt (level limit : Level) : Bool := level.rank ≤ limit.rank

end Level

/-- The part of the program that an event comes from. -/
inductive Topic where
  | program | grammar | translate | persist | interface
  deriving DecidableEq, Inhabited

/-- The topic's name in a log line and in a filter. -/
def Topic.target : Topic → String
  | program => "selconv"
  | grammar => "selconv::grammar"
  | translate => "selconv::translate"
  | persist => "selconv::persist"
  | interface => "selconv::interface"

/-- One reported event; the fields are in the order in which a log line shows them. -/
structure LogEvent where
  level : Level
  topic : Topic
  message : String
  fields : List (String × String)
  deriving DecidableEq, Inhabited

/-- Events in the order in which they happened. -/
abbrev Log := List LogEvent

/-- A result with the events that led to it. -/
structure Logged (α : Type) where
  value : α
  log : Log := []

namespace Logged

instance : Monad Logged where
  pure a := ⟨a, []⟩
  bind x f := ⟨(f x.value).value, x.log ++ (f x.value).log⟩

/-- Reports one event. -/
def note (e : LogEvent) : Logged Unit := ⟨(), [e]⟩

@[simp] theorem value_pure {α : Type} (a : α) : (pure a : Logged α).value = a := rfl

@[simp] theorem log_pure {α : Type} (a : α) : (pure a : Logged α).log = [] := rfl

@[simp] theorem value_bind {α β : Type} (x : Logged α) (f : α → Logged β) :
    (x >>= f).value = (f x.value).value := rfl

@[simp] theorem log_bind {α β : Type} (x : Logged α) (f : α → Logged β) :
    (x >>= f).log = x.log ++ (f x.value).log := rfl

@[simp] theorem log_note (e : LogEvent) : (note e).log = [e] := rfl

end Logged

end FacetQuery

import FacetQuery.Log
import FacetQuery.Number.Binary64
import FacetQuery.Text.Pattern

/-!
# `FacetQuery.CommandLine.LogFilter` — which events are shown

A filter is a list of directives between commas. A directive is a level, which stands for every topic, or
the head of a topic's name and perhaps `=` and a level. Between head and level brackets may stand: with a
field in braces they leave the events that have the field, and with anything else they ask for what
happens inside spans. A value that is asked of a field is a number or a pattern. For each event the most
specific directive that covers it decides; an event that none covers is not shown.

## Contents
- `Directive`, what it covers, and `Directive.ofText?`.
- `LogFilter`, `LogFilter.ofString?` and `LogFilter.shows`.
- `logLine`, the line for an event.
-/

namespace FacetQuery.CommandLine

/-- What a directive asks for. -/
inductive Scope where
  /-- The events of topics whose names start with `head`; those among them that have the field, if one is
      given. -/
  | events (head : String) (field : Option String)
  /-- What happens inside spans; no event does. -/
  | spans
  deriving DecidableEq, Inhabited

/-- What a directive asks for, and the most detailed level that it shows, if it shows any. -/
structure Directive where
  scope : Scope
  limit : Option Level
  deriving DecidableEq, Inhabited

/-! ## Reading a directive -/

/-- The word or number for a level; `off` and zero show nothing. -/
def limit? (word : String) : Option (Option Level) :=
  match natural? word.toList with
  | some 0 => some none
  | some 1 => some (some .error)
  | some 2 => some (some .warn)
  | some 3 => some (some .info)
  | some 4 => some (some .debug)
  | some 5 => some (some .trace)
  | some _ => none
  | none =>
      match word.toLower with
      | "error" => some (some .error)
      | "warn" => some (some .warn)
      | "info" => some (some .info)
      | "debug" => some (some .debug)
      | "trace" => some (some .trace)
      | "off" => some none
      | _ => none

/-- Whether a character may start a directive. -/
def startsDirective (c : Char) : Bool :=
  Text.isAlphanumeric c || c == '-' || c == ':' || c == '_' || c == '['

/-! The parts of a directive are told apart in its text behind the blanks in front of it. But they are taken
from the text with these blanks, counted from its start. So below, `found` is what is left of the one text,
and `taken` what is left of the other when as many characters are passed. -/

/-- The level that ends a directive; where none is given everything is shown. -/
def levelPart? (taken found : List Char) : Option (Option Level) :=
  match found with
  | '=' :: _ => if taken.tail = [] then some (some .trace) else limit? (String.ofList taken.tail)
  | _ => if found.all Text.isBlank then some (some .trace) else none

/-- Whether the value that stands behind the first `=` of a field, if there is one, is a number or a
    pattern; a further `=` ends it. -/
def isFieldTest (field : List Char) : Bool :=
  match field.dropWhile (· ≠ '=') with
  | [] => true
  | _ :: r =>
      let value := r.takeWhile (· ≠ '=')
      (Binary64.ofText? value).isSome || Text.isPattern value

/-- What brackets ask for behind the head of a topic's name, and what follows them. -/
def brackets? (head : String) (taken found : List Char) : Option (Scope × List Char) :=
  let span := found.takeWhile fun c => c ≠ ']' ∧ c ≠ '\x7b'
  match found.drop span.length with
  | ']' :: rest => some (.spans, rest)
  | _ :: r =>
      let width := (r.takeWhile (· ≠ '\x7d')).length
      let field := (taken.drop (span.length + 1)).take width
      match r.drop width with
      | '\x7d' :: ']' :: rest =>
          if width = 0 ∨ !isFieldTest field then none
          else if span = [] ∧ !field.contains '=' then
            some (.events head (some (String.ofList field)), rest)
          else some (.spans, rest)
      | _ => none
  | [] => none

/-- One directive. -/
def Directive.ofText? (cs : List Char) : Option Directive :=
  let body := cs.dropWhile Text.isBlank
  let width := (body.takeWhile fun c => c ≠ '=' ∧ c ≠ '[').length
  let head := String.ofList (cs.take width)
  if !body.head?.any startsDirective then none
  else
    match body.drop width with
    | [] =>
        match limit? (String.ofList cs) with
        | some limit => some ⟨.events "" none, limit⟩
        | none => some ⟨.events (String.ofList cs) none, some .trace⟩
    | '[' :: r => do
        let (scope, rest) ← brackets? head (cs.drop (width + 1)) r
        return ⟨scope, ← levelPart? (cs.drop (body.length - rest.length)) rest⟩
    | rest => return ⟨.events head none, ← levelPart? (cs.drop width) rest⟩

/-! ## Filters -/

/-- Whether an event has a field; its message counts as one. -/
def hasField (e : LogEvent) (field : String) : Bool :=
  field == "message" || e.fields.any (·.1 == field)

/-- Whether a directive covers an event. -/
def Scope.covers (s : Scope) (e : LogEvent) : Bool :=
  match s with
  | events head field => head.toList.isPrefixOf e.topic.target.toList && field.all (hasField e)
  | spans => false

/-- Whether the second of two scopes that cover one event is at least as specific: its head is longer; or
    the heads agree, and it has a field that the first has not, or whose name comes no earlier. -/
def Scope.yieldsTo : Scope → Scope → Bool
  | events h f, events i g =>
      h.length < i.length ||
        (h.length == i.length && f.all fun a => g.any fun b => !(b < a))
  | spans, _ => true
  | events .., spans => false

/-- The directives of a filter, in the order given. -/
abbrev LogFilter := List Directive

namespace LogFilter

/-- The filter that shows one level and what is more severe. -/
def upTo (level : Level) : LogFilter := [⟨.events "" none, some level⟩]

/-- The filter that a text writes; a text without directives shows nothing. -/
def ofString? (s : String) : Option LogFilter :=
  ((s.toList.splitOn ',').filter (· ≠ [])).mapM Directive.ofText?

/-- A filter without directives is one, and a value that is neither a number nor a pattern is refused. -/
example : ofString? ",," = some [] ∧ ofString? "[\x7ba=+5\x7d]" = some [⟨.spans, some .trace⟩] ∧
    ofString? "warn,[\x7ba=+x\x7d]" = none := by decide +kernel

/-- The directive that decides for an event: the most specific one, and of two that are equally specific
    the later. -/
def decisive? (f : LogFilter) (e : LogEvent) : Option Directive :=
  (f.filter (·.scope.covers e)).foldl
    (fun best d => if best.all (·.scope.yieldsTo d.scope) then some d else best) none

/-- Whether an event is shown. -/
def shows (f : LogFilter) (e : LogEvent) : Bool :=
  match f.decisive? e with
  | some ⟨_, some limit⟩ => e.level.shownAt limit
  | _ => false

end LogFilter

/-- The line for an event. -/
def logLine (e : LogEvent) : String :=
  e.level.label ++ " " ++ e.topic.target ++ ": " ++ e.message ++
    String.join (e.fields.map fun (k, v) => " " ++ k ++ "=" ++ v) ++ "\n"

end FacetQuery.CommandLine

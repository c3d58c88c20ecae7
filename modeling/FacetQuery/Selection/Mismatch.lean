import FacetQuery.Selection.Line
import FacetQuery.Selection.Reader

/-!
# `FacetQuery.Selection.Mismatch` — reading a whole text, and the report when it does not fit

Reading is all or nothing: the first line that is stuck rejects the text. The report then gives the
place as a line and a column, and what was expected there. Lines are numbered by `\n` alone (which also
ends `\r\n`), so a lone `\r` is one more column of a report although a statement ends at it.
-/

namespace FacetQuery.Selection

/-- Why a text is no selection: where, counted from one, and what would have fitted there. -/
structure Mismatch where
  line : Nat
  column : Nat
  expected : List Rule
  deriving DecidableEq, Inhabited

namespace Mismatch

/-- The line of the place that has `before` in front of it. -/
def lineAfter (before : List Char) : Nat := 1 + before.count '\n'

/-- The column of the place that has `before` in front of it. -/
def columnAfter (before : List Char) : Nat := 1 + (before.reverse.takeWhile (· ≠ '\n')).length

/-- The words of a list with commas, and `or` before the last. -/
def alternatives : List String → String
  | [] => ""
  | [a] => a
  | [a, b] => a ++ " or " ++ b
  | a :: b :: more =>
      String.intercalate ", " ((a :: b :: more).dropLast ++ ["or " ++ ((b :: more).getLast?.getD "")])

/-- The report in words. -/
def message (m : Mismatch) : String :=
  "line " ++ toString m.line ++ ", column " ++ toString m.column ++ ": expected " ++
    alternatives (m.expected.map Rule.label)

/-- The report on failures whose place is counted from the start of `text`. The whole selection is a
    rule too, tried at the start, and it speaks for what failed there. -/
def ofAttempts (text : List Char) (tried : Attempts) : Mismatch :=
  let final := tried.fail .selection 0 0
  let before := text.take final.place
  ⟨lineAfter before, columnAfter before, final.report⟩

end Mismatch

/-- The statements of a line that starts `start` characters into the text and of the lines after it, or
    the failures on which the first unreadable one is stuck, counted from the start of the text. -/
def readFrom (start : Nat) (line : List Char) :
    List (Break × List Char) → Except Attempts (List Statement)
  | [] =>
      match readLine line with
      | .error tried => .error { tried with place := start + tried.place }
      | .ok s => .ok s.toList
  | (brk, next) :: later =>
      match readLine line with
      | .error tried => .error { tried with place := start + tried.place }
      | .ok s =>
          (readFrom (start + line.length + brk.chars.length) next later).map (s.toList ++ ·)

/-- The statements of a text in file order, if every line of it can be read. -/
def statements (text : List Char) : Except Mismatch (List Statement) :=
  let lines := Lines.ofText text
  (readFrom 0 lines.first lines.later).mapError (Mismatch.ofAttempts text)

/-- The event stream of a list of statements. -/
def eventsOf (ss : List Statement) : List Event := ss.flatMap Statement.events

/-- The event stream of a text. -/
def events (text : List Char) : Except Mismatch (List Event) := (statements text).map eventsOf

@[simp] theorem eventsOf_append (ss ts : List Statement) :
    eventsOf (ss ++ ts) = eventsOf ss ++ eventsOf ts := by
  simp [eventsOf]

end FacetQuery.Selection

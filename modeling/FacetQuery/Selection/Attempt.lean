/-!
# `FacetQuery.Selection.Attempt` — where reading a line got stuck

When no form fits a line, the report names the furthest place at which a named rule was tried in vain,
and the rules that were tried there. `Attempts` is that record. It holds one place only: a failure
further on replaces it, a failure before it is forgotten.

A rule whose failure rests on exactly one newer failure at its own place adds nothing, so the report
names the single inner rule; with none or several of them the rule speaks for them all.
-/

namespace FacetQuery.Selection

/-- The rules of the grammar that a report may name, in the order in which it names them. -/
inductive Rule where
  | endOfInput | selection | facet | variableDouble | variableScoped | variableFrequency
  | scope | name | value | realm | frequency
  deriving DecidableEq, Inhabited

namespace Rule

/-- All rules, in the order of a report. -/
def all : List Rule :=
  [endOfInput, selection, facet, variableDouble, variableScoped, variableFrequency,
    scope, name, value, realm, frequency]

theorem mem_all (r : Rule) : r ∈ all := by
  cases r <;> decide

/-- The word for a rule in a report. -/
def label : Rule → String
  | endOfInput => "EOI"
  | selection => "selection"
  | facet => "facet"
  | variableDouble => "variable_double"
  | variableScoped => "variable_scoped"
  | variableFrequency => "variable_frequency"
  | scope => "scope"
  | name => "name"
  | value => "value"
  | realm => "realm"
  | frequency => "frequency"

end Rule

/-- The furthest place at which rules failed, as a count of characters, and those rules. -/
structure Attempts where
  place : Nat
  rules : List Rule
  deriving DecidableEq, Inhabited

namespace Attempts

/-- Nothing has failed yet. -/
def empty : Attempts := ⟨0, []⟩

/-- How many rules are on record as failing at `p`. -/
def countAt (a : Attempts) (p : Nat) : Nat := if p = a.place then a.rules.length else 0

/-- Records that `r`, tried at `p`, failed, where `entered` was the count at `p` when it was tried. -/
def fail (a : Attempts) (r : Rule) (p entered : Nat) : Attempts :=
  if a.countAt p = entered + 1 then a
  else if p = a.place then ⟨p, a.rules.take entered ++ [r]⟩
  else if a.place < p then ⟨p, [r]⟩
  else a

/-- The rules on record, each once, in the order of a report. -/
def report (a : Attempts) : List Rule := Rule.all.filter (a.rules.contains ·)

/-- A failure never moves the record backwards. -/
theorem place_le_fail (a : Attempts) (r : Rule) (p entered : Nat) :
    a.place ≤ (a.fail r p entered).place := by
  unfold fail
  split
  · exact Nat.le_refl _
  · split
    · next h => exact Nat.le_of_eq h.symm
    · split
      · next h => exact Nat.le_of_lt h
      · exact Nat.le_refl _

/-- A failure leaves the record where it was, or moves it to the place of the rule that failed. -/
theorem place_fail_eq (a : Attempts) (r : Rule) (p entered : Nat) :
    (a.fail r p entered).place = a.place ∨ (a.fail r p entered).place = p := by
  unfold fail
  split
  · exact Or.inl rfl
  · split
    · exact Or.inr rfl
    · split
      · exact Or.inr rfl
      · exact Or.inl rfl

end Attempts

end FacetQuery.Selection

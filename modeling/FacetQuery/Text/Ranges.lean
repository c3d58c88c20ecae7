/-!
# `FacetQuery.Text.Ranges` — classes of characters as ranges of code points

A class of characters that follows no simple rule is a table: the ranges of its code points in ascending
order, both ends of a range included.
-/

namespace FacetQuery.Text

/-- A class of characters. -/
abbrev Ranges := List (Nat × Nat)

/-- Whether a class holds a character. -/
def Ranges.contain (rs : Ranges) (c : Char) : Bool :=
  rs.any fun (low, high) => low ≤ c.toNat && c.toNat ≤ high

/-- A class holds a character iff one of its ranges does. -/
theorem Ranges.contain_iff {rs : Ranges} {c : Char} :
    rs.contain c = true ↔ ∃ r ∈ rs, r.1 ≤ c.toNat ∧ c.toNat ≤ r.2 := by
  simp [contain]

end FacetQuery.Text

/-!
# `FacetQuery.Query` — facets, requests and queries

The data that a selection file stands for. A **facet** is a named filter term with its values in the
order they were declared; a **request** is the ordered list of facets that selects one variable; a
**query** is the root facets together with the requests.

## Contents
- `Facet` with `hasValue` and `duplicates` (each repeated value once, at its second occurrence).
- `Request`, `Query`, the root facets of one name, and the list of all facets, root level first.
- `Query.mapFacets`, which rewrites every facet on both levels and keeps the shape.
-/

namespace FacetQuery

/-- A named filter term. Values keep their declared order, and a value may be repeated. -/
structure Facet where
  name : String
  values : List String
  deriving DecidableEq, Inhabited

namespace Facet

/-- The facet that has no name and no values yet. -/
def blank : Facet := ⟨"", []⟩

/-- Whether `v` is among the values. -/
def hasValue (f : Facet) (v : String) : Bool := f.values.contains v

/-- The members of the list that stand after exactly one earlier equal member, where `earlier` are
    the members already passed. -/
def secondOccurrences (earlier : List String) : List String → List String
  | [] => []
  | v :: vs =>
      if earlier.count v = 1 then v :: secondOccurrences (v :: earlier) vs
      else secondOccurrences (v :: earlier) vs

/-- The values that occur more than once, each listed where it is met for the second time. -/
def duplicates (f : Facet) : List String := secondOccurrences [] f.values

@[simp] theorem secondOccurrences_nil (earlier : List String) :
    secondOccurrences earlier [] = [] := rfl

@[simp] theorem duplicates_singleton (n v : String) : duplicates ⟨n, [v]⟩ = [] := by
  simp [duplicates, secondOccurrences]

/-- A value is a second occurrence iff the whole list, with what was passed, has it at least twice
    and at most one of these was passed. -/
theorem mem_secondOccurrences {earlier vs : List String} {v : String} :
    v ∈ secondOccurrences earlier vs ↔ earlier.count v ≤ 1 ∧ 2 ≤ earlier.count v + vs.count v := by
  induction vs generalizing earlier with
  | nil =>
      simp only [secondOccurrences_nil, List.not_mem_nil, List.count_nil, false_iff]
      omega
  | cons w ws ih =>
      by_cases hw : w = v
      · subst hw
        by_cases h1 : earlier.count w = 1
        · simp [secondOccurrences, h1]; omega
        · simp only [secondOccurrences, h1, if_false, ih, List.count_cons_self]
          omega
      · have hne : (w == v) = false := by simp [hw]
        have hc : (w :: earlier).count v = earlier.count v := by simp [List.count_cons, hne]
        have hs : (w :: ws).count v = ws.count v := by simp [List.count_cons, hne]
        by_cases h1 : earlier.count w = 1
        · simp only [secondOccurrences, h1, if_true, List.mem_cons, ih, hc, hs]
          constructor
          · rintro (rfl | h)
            · exact absurd rfl hw
            · exact h
          · exact Or.inr
        · simp only [secondOccurrences, h1, if_false, ih, hc, hs]

end Facet

/-- The facets that select one variable, the variable's own facet last. -/
abbrev Request := List Facet

/-- The root facets of a selection and its requests, both in file order. -/
structure Query where
  facets : List Facet
  requests : List Request
  deriving DecidableEq, Inhabited

namespace Query

/-- The query that selects nothing. -/
def empty : Query := ⟨[], []⟩

/-- Whether there is neither a root facet nor a request. -/
def isEmpty (q : Query) : Bool := q.facets.isEmpty && q.requests.isEmpty

/-- The root facets called `name`. -/
def facetsNamed (q : Query) (name : String) : List Facet := q.facets.filter (·.name == name)

/-- Every facet, root level first, then request by request. -/
def allFacets (q : Query) : List Facet := q.facets ++ q.requests.flatten

/-- Rewrites every facet on both levels. -/
def mapFacets (g : Facet → Facet) (q : Query) : Query :=
  ⟨q.facets.map g, q.requests.map (·.map g)⟩

/-- The root facets of both, then the requests of both. -/
def append (p q : Query) : Query := ⟨p.facets ++ q.facets, p.requests ++ q.requests⟩

instance : Append Query := ⟨append⟩

@[simp] theorem facets_append (p q : Query) : (p ++ q).facets = p.facets ++ q.facets := rfl

@[simp] theorem requests_append (p q : Query) : (p ++ q).requests = p.requests ++ q.requests := rfl

@[simp] theorem isEmpty_eq_true {q : Query} : q.isEmpty = true ↔ q = empty := by
  cases q
  simp [isEmpty, empty]

@[simp] theorem allFacets_mapFacets (g : Facet → Facet) (q : Query) :
    (q.mapFacets g).allFacets = q.allFacets.map g := by
  simp [allFacets, mapFacets, List.map_flatten]

end Query

end FacetQuery

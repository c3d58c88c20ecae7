import Mathlib.Data.List.Forall2
import FacetQuery.Query.Cmip6

/-!
# `FacetQuery.Proofs.Query.Renaming` — post-processing renames, and does nothing else

What post-processing makes of a query is described without the pass that makes it: the facets before and after stand
opposite each other, on both levels, and of each only the name may differ (`Query.Renamed`). There is one query of
which this is true (`Query.renamed_iff`), so the description leaves nothing open.

That a second pass finds nothing to do rests on three sets of names that have no member in common: those that
detection looks at, those that are replaced, and those that replace them. The facets that detection looks at are the
same before and after, whatever else a query holds (`facetsNamed_rename`).

Main statement: `Query.postprocess_renames`.
-/

namespace FacetQuery

/-- Lists stand opposite each other by a function iff one is the image of the other. -/
theorem forall₂_iff_map_eq {α β : Type} {r : α → β → Prop} {f : α → β} (h : ∀ a b, r a b ↔ f a = b)
    {as : List α} {bs : List β} : List.Forall₂ r as bs ↔ as.map f = bs := by
  have hr : r = fun a b => f a = b := funext fun a => funext fun b => propext (h a b)
  rw [hr, ← List.forall₂_map_left_iff, List.forall₂_eq_eq_eq]

/-- The facet `g` is `f` under its CMIP6 name. -/
structure Facet.Renamed (f g : Facet) : Prop where
  values : g.values = f.values
  frequency : f.name = "frequency" → g.name = "table_id"
  variable_ : f.name = "variable" → g.name = "variable_id"
  other : f.name ≠ "frequency" → f.name ≠ "variable" → g.name = f.name

namespace Query

/-- The facets of `r` are those of `q` under their CMIP6 names, one for each and in the same places. -/
structure Renamed (q r : Query) : Prop where
  facets : List.Forall₂ Facet.Renamed q.facets r.facets
  requests : List.Forall₂ (List.Forall₂ Facet.Renamed) q.requests r.requests

theorem cmip6Name_of_ne {name : String} (hf : name ≠ "frequency") (hv : name ≠ "variable") :
    cmip6Name name = name := by
  rw [cmip6Name, if_neg hf, if_neg hv]

theorem facet_renamed_iff {f g : Facet} : f.Renamed g ↔ renameFacet f = g := by
  constructor
  · intro h
    obtain ⟨n, vs⟩ := g
    have hvalues : vs = f.values := h.values
    have hname : n = cmip6Name f.name := by
      by_cases hf : f.name = "frequency"
      · rw [hf]
        exact h.frequency hf
      · by_cases hv : f.name = "variable"
        · rw [hv]
          exact h.variable_ hv
        · rw [cmip6Name_of_ne hf hv]
          exact h.other hf hv
    rw [renameFacet, hvalues, hname]
  · rintro rfl
    refine ⟨rfl, fun hf => ?_, fun hv => ?_, cmip6Name_of_ne⟩
    · show cmip6Name f.name = "table_id"
      rw [hf]
      rfl
    · show cmip6Name f.name = "variable_id"
      rw [hv]
      rfl

/-- One query is another one renamed, and no other is. -/
theorem renamed_iff {q r : Query} : q.Renamed r ↔ q.rename = r := by
  have hfacets : ∀ fs gs, List.Forall₂ Facet.Renamed fs gs ↔ fs.map renameFacet = gs := fun _ _ =>
    forall₂_iff_map_eq (r := Facet.Renamed) (f := renameFacet) fun f g => facet_renamed_iff (f := f) (g := g)
  obtain ⟨fs, rs⟩ := r
  rw [rename, mapFacets, Query.mk.injEq, ← hfacets, ← forall₂_iff_map_eq hfacets]
  exact ⟨fun h => ⟨h.facets, h.requests⟩, fun h => ⟨h.1, h.2⟩⟩

/-- What it takes to target CMIP6. -/
theorem targetsCmip6_iff {q : Query} :
    q.targetsCmip6 = true ↔
      ∃ f ∈ q.facets, (f.name = "project" ∨ f.name = "mip_era") ∧ "CMIP6" ∈ f.values := by
  simp [targetsCmip6, generationFacets, cmip6Generation, Facet.hasValue]

/-- The names that detection looks at are neither replaced nor do they replace others. -/
theorem cmip6Name_eq_iff {name n : String} (hn : n ∈ generationFacets) : cmip6Name name = n ↔ name = n := by
  have hcontains := generationFacets_contains_cmip6Name name
  by_cases hname : name ∈ generationFacets
  · have hself : cmip6Name name = name := by
      rcases List.mem_pair.mp hname with rfl | rfl
      · rfl
      · rfl
    rw [hself]
  · rw [List.contains_eq_mem, List.contains_eq_mem, decide_eq_decide] at hcontains
    exact ⟨fun h => absurd (hcontains.mp (h ▸ hn)) hname, fun h => absurd (h ▸ hn) hname⟩

/-- The facets that detection looks at stay as they are. -/
theorem facetsNamed_rename (q : Query) {n : String} (hn : n ∈ generationFacets) :
    q.rename.facetsNamed n = q.facetsNamed n := by
  show (q.facets.map renameFacet).filter (·.name == n) = q.facets.filter (·.name == n)
  induction q.facets with
  | nil => rfl
  | cons f fs ih =>
      have hname : ((renameFacet f).name == n) = (f.name == n) := by
        rw [Bool.eq_iff_iff, beq_iff_eq, beq_iff_eq]
        exact cmip6Name_eq_iff hn
      rw [List.map_cons, List.filter_cons, List.filter_cons, hname, ih]
      split
      · next h =>
          have hself : renameFacet f = f := by
            rw [renameFacet, (cmip6Name_eq_iff hn).mpr (beq_iff_eq.mp h), ← beq_iff_eq.mp h]
          rw [hself]
      · rfl

/-- **Post-processing is a renaming, and doing it again changes nothing.** It is done iff a root facet names the
    generation. If it is not, the query is as it was. If it is, every facet on both levels has its CMIP6 name and
    the values that it had, and no facet bears one of the old names. The facets that name the generation stay as
    they are, so the result comes to itself. -/
theorem postprocess_renames (q : Query) :
    (q.postprocess.1 = true ↔
      ∃ f ∈ q.facets, (f.name = "project" ∨ f.name = "mip_era") ∧ "CMIP6" ∈ f.values) ∧
    (q.postprocess.1 = false → q.postprocess.2 = q) ∧
    (q.postprocess.1 = true → q.Renamed q.postprocess.2 ∧
      ∀ f ∈ q.postprocess.2.allFacets, f.name ≠ "frequency" ∧ f.name ≠ "variable") ∧
    (∀ n ∈ generationFacets, q.postprocess.2.facetsNamed n = q.facetsNamed n) ∧
    q.postprocess.2.postprocess = q.postprocess := by
  rw [fst_postprocess, snd_postprocess]
  refine ⟨targetsCmip6_iff, fun h => ?_, fun h => ?_, fun n hn => ?_, ?_⟩
  · rw [h]
    rfl
  · rw [if_pos h]
    refine ⟨renamed_iff.mpr rfl, fun f hf => ?_⟩
    rw [rename, allFacets_mapFacets] at hf
    obtain ⟨g, -, rfl⟩ := List.mem_map.mp hf
    exact ⟨cmip6Name_ne_frequency g.name, cmip6Name_ne_variable g.name⟩
  · split
    · exact q.facetsNamed_rename hn
    · rfl
  · split
    · next h => simp [postprocess, h]
    · rfl

/-- Facets that bear new names already, and a scope that does not decide the generation. -/
example :
    postprocess ⟨[⟨"table_id", ["fx"]⟩, ⟨"variable", []⟩, ⟨"mip_era", ["CMIP5", "CMIP6"]⟩],
        [[⟨"project", ["CMIP5"]⟩, ⟨"frequency", ["mon"]⟩, ⟨"variable", ["tas"]⟩], []]⟩ =
      (true, ⟨[⟨"table_id", ["fx"]⟩, ⟨"variable_id", []⟩, ⟨"mip_era", ["CMIP5", "CMIP6"]⟩],
        [[⟨"project", ["CMIP5"]⟩, ⟨"table_id", ["mon"]⟩, ⟨"variable_id", ["tas"]⟩], []]⟩) := by
  decide

end Query

end FacetQuery

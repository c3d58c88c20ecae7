import FacetQuery.Query

/-!
# `FacetQuery.Query.Cmip6` — facet names of the CMIP6 generation

CMIP6 calls the frequency of a variable its `table_id` and the variable itself `variable_id`. A query
that targets CMIP6 gets those names on both levels; values are left alone.

The names that detection looks at, the old names and the new names have no member in common, so
renaming neither makes nor unmakes a CMIP6 query (`targetsCmip6_rename`) and a second renaming finds
nothing to do (`rename_rename`).
-/

namespace FacetQuery.Query

/-- The value that marks the generation. -/
def cmip6Generation : String := "CMIP6"

/-- The root facets that decide which generation a query targets. -/
def generationFacets : List String := ["project", "mip_era"]

/-- Whether a root facet that names the generation has the value `CMIP6`. -/
def targetsCmip6 (q : Query) : Bool :=
  q.facets.any fun f => generationFacets.contains f.name && f.hasValue cmip6Generation

/-- The name that CMIP6 uses for what other generations call `name`. -/
def cmip6Name (name : String) : String :=
  if name = "frequency" then "table_id"
  else if name = "variable" then "variable_id"
  else name

/-- The facet under its CMIP6 name, with the values it has. -/
def renameFacet (f : Facet) : Facet := { f with name := cmip6Name f.name }

/-- Every facet under its CMIP6 name. -/
def rename (q : Query) : Query := q.mapFacets renameFacet

/-- Whether the query targets CMIP6, and the query under the names of its generation. -/
def postprocess (q : Query) : Bool × Query :=
  if q.targetsCmip6 then (true, q.rename) else (false, q)

theorem fst_postprocess (q : Query) : q.postprocess.1 = q.targetsCmip6 := by
  unfold postprocess
  cases q.targetsCmip6 <;> rfl

theorem snd_postprocess (q : Query) : q.postprocess.2 = if q.targetsCmip6 then q.rename else q := by
  unfold postprocess
  cases q.targetsCmip6 <;> rfl

/-! ## Renaming and detection do not meet -/

@[simp] theorem cmip6Name_cmip6Name (name : String) : cmip6Name (cmip6Name name) = cmip6Name name := by
  unfold cmip6Name
  split
  · decide
  · split
    · decide
    · simp [*]

theorem cmip6Name_ne_frequency (name : String) : cmip6Name name ≠ "frequency" := by
  unfold cmip6Name
  split
  · decide
  · split
    · decide
    · assumption

theorem cmip6Name_ne_variable (name : String) : cmip6Name name ≠ "variable" := by
  unfold cmip6Name
  split
  · decide
  · split
    · decide
    · assumption

/-- A name decides the generation under its CMIP6 name iff it does under its own. -/
theorem generationFacets_contains_cmip6Name (name : String) :
    generationFacets.contains (cmip6Name name) = generationFacets.contains name := by
  by_cases hf : name = "frequency"
  · subst hf; decide
  · by_cases hv : name = "variable"
    · subst hv; decide
    · simp [cmip6Name, hf, hv]

@[simp] theorem renameFacet_renameFacet (f : Facet) : renameFacet (renameFacet f) = renameFacet f := by
  simp [renameFacet]

@[simp] theorem rename_rename (q : Query) : q.rename.rename = q.rename := by
  simp [rename, mapFacets, List.map_map, Function.comp_def]

@[simp] theorem targetsCmip6_rename (q : Query) : q.rename.targetsCmip6 = q.targetsCmip6 := by
  simp only [targetsCmip6, rename, mapFacets, List.any_map]
  congr 1
  funext f
  show (generationFacets.contains (cmip6Name f.name) && _) = _
  rw [generationFacets_contains_cmip6Name]
  rfl

end FacetQuery.Query

import FacetQuery.Proofs.Query.Layout

/-!
# `FacetQuery.Proofs.Query.Shape` — the requests of a selection, and the names in them

Every request comes from one bracketed line, so it is short: what stands in the brackets, at most two facets of
one value each, and the variable's own facet behind them (`Request.Selects`). Which name that has is a matter of
the whole file: a basic line anywhere may make it CMIP6, and then every facet is under its CMIP6 name. A scope
stands in a request and not at the root, so it never does, whatever it says (`Query.targetsCmip6_ofStatements`).

The facets of a file may themselves be called `variable` or `frequency`; then they are renamed as well, and the
shape stays the same, because it is told by the places of the facets.

Main statement: `Conversion.shape_of_process`.
-/

namespace FacetQuery

open Selection

/-! ## Which files are CMIP6 -/

/-- Some basic line that is kept gives the generation. -/
def Selection.GivesCmip6 (x : Exclusions) (ss : List Statement) : Prop :=
  ∃ n vs, Statement.basic n vs ∈ ss ∧ (n = "project" ∨ n = "mip_era") ∧ n ∉ x ∧ "CMIP6" ∈ vs

theorem Selection.Statement.mem_facets {x : Exclusions} {s : Statement} {f : Facet} :
    f ∈ s.facets x ↔ s = .basic f.name f.values ∧ f.name ∉ x := by
  cases s with
  | basic n vs =>
      show f ∈ (if n ∈ x then [] else [(⟨n, vs⟩ : Facet)]) ↔ _
      by_cases hn : n ∈ x
      · rw [if_pos hn]
        constructor
        · intro h
          exact nomatch h
        · rintro ⟨hs, hnot⟩
          cases hs
          exact absurd hn hnot
      · rw [if_neg hn, List.mem_singleton]
        constructor
        · rintro rfl
          exact ⟨rfl, hn⟩
        · rintro ⟨hs, -⟩
          cases hs
          rfl
  | byFrequency g vs => exact ⟨(nomatch ·), fun h => nomatch h.1⟩
  | byScope n v vs => exact ⟨(nomatch ·), fun h => nomatch h.1⟩
  | byRealm r g vs => exact ⟨(nomatch ·), fun h => nomatch h.1⟩

namespace Query

variable {x : Exclusions} {ss : List Statement}

/-- What is built from lines targets CMIP6 iff a basic line among them says so. -/
theorem targetsCmip6_ofStatements : (ofStatements x ss).targetsCmip6 = true ↔ GivesCmip6 x ss := by
  simp only [targetsCmip6, ofStatements, List.any_eq_true, List.mem_flatMap, Bool.and_eq_true,
    Statement.mem_facets, generationFacets, cmip6Generation, Facet.hasValue, List.contains_iff_mem,
    List.mem_cons, List.not_mem_nil, or_false]
  constructor
  · rintro ⟨f, ⟨s, hs, rfl, hkept⟩, hname, hvalue⟩
    exact ⟨f.name, f.values, hs, hname, hkept, hvalue⟩
  · rintro ⟨n, vs, hs, hname, hkept, hvalue⟩
    exact ⟨⟨n, vs⟩, ⟨_, hs, rfl, hkept⟩, hname, hvalue⟩

theorem ofSelection_of_givesCmip6 (h : GivesCmip6 x ss) :
    ofSelection x ss = (ofStatements x ss).rename := by
  rw [ofSelection, snd_postprocess, if_pos (targetsCmip6_ofStatements.mpr h)]

theorem ofSelection_of_not_givesCmip6 (h : ¬ GivesCmip6 x ss) :
    ofSelection x ss = ofStatements x ss := by
  rw [ofSelection, snd_postprocess, if_neg fun ht => h (targetsCmip6_ofStatements.mp ht)]

/-- The other names change nothing about what the query targets. -/
theorem targetsCmip6_ofSelection : (ofSelection x ss).targetsCmip6 = true ↔ GivesCmip6 x ss := by
  rw [← targetsCmip6_ofStatements, ofSelection, snd_postprocess]
  split
  · rw [targetsCmip6_rename]
  · exact Iff.rfl

end Query

/-! ## The shape of a request -/

namespace Request

/-- The request ends with the variable's facet under the name `name`, which has a value; before it stand at most
    two facets, of one value each. -/
def Selects (name : String) (r : Request) : Prop :=
  ∃ scope values, r = scope ++ [⟨name, values⟩] ∧ scope.length ≤ 2 ∧
    (∀ f ∈ scope, f.values.length = 1) ∧ values ≠ []

/-- It keeps that shape under other names. -/
theorem Selects.rename {name : String} {r : Request} (h : Selects name r) :
    Selects (Query.cmip6Name name) (r.map Query.renameFacet) := by
  obtain ⟨scope, values, rfl, hlength, hsingle, hvalues⟩ := h
  refine ⟨scope.map Query.renameFacet, values, ?_, ?_, ?_, hvalues⟩
  · rw [List.map_append]
    rfl
  · rwa [List.length_map]
  · intro f hf
    obtain ⟨g, hg, rfl⟩ := List.mem_map.mp hf
    exact hsingle g hg

end Request

/-- A bracketed line makes a request of that shape, if it gives values. -/
theorem Selection.Statement.selects_of_mem_requests {x : Exclusions} {s : Statement} {r : Request}
    (h : r ∈ s.requests x) (hvalues : ∀ f ∈ r, f.values ≠ []) : Request.Selects "variable" r := by
  have hlast : ∀ {scope vs}, r = scope ++ [⟨"variable", vs⟩] → vs ≠ [] := by
    rintro scope vs rfl
    exact hvalues ⟨"variable", vs⟩ (by simp)
  cases s with
  | basic n vs => exact nomatch h
  | byFrequency f vs =>
      have hr : r = [⟨"frequency", [f]⟩] ++ [⟨"variable", vs⟩] := List.mem_singleton.mp h
      exact ⟨_, vs, hr, Nat.le_succ 1, by simp, hlast hr⟩
  | byScope n v vs =>
      rw [requests] at h
      split at h
      · have hr : r = [] ++ [⟨"variable", vs⟩] := List.mem_singleton.mp h
        exact ⟨_, vs, hr, by decide, by simp, hlast hr⟩
      · have hr : r = [⟨n, [v]⟩] ++ [⟨"variable", vs⟩] := List.mem_singleton.mp h
        exact ⟨_, vs, hr, Nat.le_succ 1, by simp, hlast hr⟩
  | byRealm realm f vs =>
      have hr : r = [⟨"realm", [realm]⟩, ⟨"frequency", [f]⟩] ++ [⟨"variable", vs⟩] :=
        List.mem_singleton.mp h
      exact ⟨_, vs, hr, Nat.le_refl 2, by simp, hlast hr⟩

/-- So does every line of a selection. -/
theorem Query.selects_ofStatements {lines : List (List Char)} {ss : List Statement}
    (h : LinesText lines ss) (x : Exclusions) :
    ∀ r ∈ (Query.ofStatements x ss).requests, Request.Selects "variable" r := by
  intro r hr
  have hworded := (h.worded x).requests r hr
  obtain ⟨s, -, hs⟩ := List.mem_flatMap.mp hr
  exact Statement.selects_of_mem_requests hs fun f hf => (hworded.facets f hf).values_ne_nil

/-! ## The query that is left -/

namespace Conversion

variable {c d : Conversion} {text rendering : String} {x : Exclusions} {format : Format}

/-- **A file is CMIP6 by its basic lines, and then in every name.** Take a text that is rendered, whatever is
    excluded; its lines can be read in one way only. If a basic line that is kept gives the generation, no facet of the query is called `frequency` or
    `variable`, and every request ends with the values of its `variable_id`; otherwise every request ends with
    those of its `variable`. What stands before them are at most two facets of one value each. No scope makes a
    file CMIP6: the query targets it only if a basic line does, and if none does the request of a scope bears the
    name and the value that were given. -/
theorem shape_of_process (h : (c.process text x format).value = (.ok rendering, d)) :
    ∃ ss, (SelectionText text.toList ss ∧ ∀ ts, SelectionText text.toList ts → ts = ss) ∧
      (GivesCmip6 x ss →
        (∀ f ∈ d.query.allFacets, f.name ≠ "frequency" ∧ f.name ≠ "variable") ∧
        ∀ r ∈ d.query.requests, Request.Selects "variable_id" r) ∧
      (¬ GivesCmip6 x ss →
        (∀ r ∈ d.query.requests, Request.Selects "variable" r) ∧
        ∀ n v vs, .byScope n v vs ∈ ss → n ∉ x →
          [⟨n, [v]⟩, ⟨"variable", vs⟩] ∈ d.query.requests) ∧
      (d.query.targetsCmip6 = true ↔ GivesCmip6 x ss) := by
  obtain ⟨ss, hsel, hquery, -⟩ := query_of_process h
  have hselects := Query.selects_ofStatements hsel x
  rw [hquery]
  refine ⟨ss, ⟨hsel, fun ts hts => hsel.unique hts⟩, ?_, ?_, Query.targetsCmip6_ofSelection⟩
  · intro hgives
    rw [Query.ofSelection_of_givesCmip6 hgives]
    constructor
    · intro f hf
      rw [Query.rename, Query.allFacets_mapFacets] at hf
      obtain ⟨g, -, rfl⟩ := List.mem_map.mp hf
      exact ⟨Query.cmip6Name_ne_frequency g.name, Query.cmip6Name_ne_variable g.name⟩
    · intro r hr
      obtain ⟨r, hmem, rfl⟩ := List.mem_map.mp hr
      exact (hselects r hmem).rename
  · intro hnot
    rw [Query.ofSelection_of_not_givesCmip6 hnot]
    refine ⟨hselects, ?_⟩
    intro n v vs hs hkept
    refine List.mem_flatMap.mpr ⟨_, hs, ?_⟩
    rw [Statement.requests, if_neg hkept]
    exact List.mem_singleton_self _

/-- A file that its last line makes CMIP6, with facets and scopes that are called like others. -/
def scopedText : String :=
  "variable=v\nvariable[ocean][Omon]=tos,thetao\nvariable[frequency=day]=tas\n" ++
    "variable[project=CMIP5]=pr\nproject=CMIP6\nmip_era=CMIP5,CMIP6"

/-- The lines of that file. -/
def scopedStatements : List Statement :=
  [.basic "variable" ["v"], .byRealm "ocean" "Omon" ["tos", "thetao"],
    .byScope "frequency" "day" ["tas"], .byScope "project" "CMIP5" ["pr"],
    .basic "project" ["CMIP6"], .basic "mip_era" ["CMIP5", "CMIP6"]]

/-- What it is rendered as without its project. -/
def scopedLayout : String :=
  "variable_id: \"v\"\nmip_era: \"CMIP5,CMIP6\"\nrequests:\n" ++
    "  realm: \"ocean\"\n    table_id: \"Omon\"\n    variable_id: \"tos,thetao\"\n" ++
    "  table_id: \"day\"\n    variable_id: \"tas\"\n  variable_id: \"pr\"\n"

theorem shape_of_process_scopedText :
    ∃ d, ((start ⟨"a"⟩).process scopedText ["project"] .text).value = (.ok scopedLayout, d) ∧
      GivesCmip6 ["project"] scopedStatements ∧
      (∀ f ∈ d.query.allFacets, f.name ≠ "frequency" ∧ f.name ≠ "variable") ∧
      ∀ r ∈ d.query.requests, Request.Selects "variable_id" r := by
  have hread : (statements scopedText.toList).toOption = some scopedStatements := by decide +kernel
  have hrendered : ((start ⟨"a"⟩).process scopedText ["project"] .text).value.1.toOption =
      some scopedLayout := by decide +kernel
  obtain ⟨d, hd⟩ := exists_of_process hrendered
  obtain ⟨ss, ⟨hsel, -⟩, hgives, -, -⟩ := shape_of_process hd
  rw [statements_eq_ok_iff.mpr hsel] at hread
  have hss : ss = scopedStatements := Option.some.inj hread
  have hcmip6 : GivesCmip6 ["project"] scopedStatements :=
    ⟨"mip_era", ["CMIP5", "CMIP6"], by simp [scopedStatements], .inr rfl, by simp, by simp⟩
  obtain ⟨hnames, hselects⟩ := hgives (hss ▸ hcmip6)
  exact ⟨d, hd, hcmip6, hnames, hselects⟩

end Conversion

end FacetQuery

import FacetQuery.Conversion
import FacetQuery.Proofs.Query.Meaning

/-!
# `FacetQuery.Proofs.Conversion.Ends` — the three ends of a conversion

A text that is taken through all steps is refused by the grammar, or comes to nothing, or is rendered. That no
step after the first is ever refused rests on `build_eventsOf`: the stream of a text that was read leaves nothing
uncommitted, whatever is excluded. And a text comes to nothing only if each of its lines is dropped on its own, as
an excluded scope takes no more than itself from its line (`Query.ofStatements_eq_empty_iff`).

What the steps make of a text is put into one equation for each case, `process_of_refused` and
`process_of_selectionText`; what a conversion held before does not occur in them.

Main statement: `Conversion.process_ends`.
-/

namespace FacetQuery

open Selection

/-! ## Lines that come to nothing -/

namespace Selection.Statement

/-- The statement is a basic line with an excluded name. -/
def Dropped (x : Exclusions) : Statement → Prop
  | basic n _ => n ∈ x
  | byFrequency .. | byScope .. | byRealm .. => False

/-- Only such a line contributes nothing to the query. -/
theorem dropped_iff {x : Exclusions} {s : Statement} :
    s.Dropped x ↔ s.facets x = [] ∧ s.requests x = [] := by
  cases s with
  | basic n vs =>
      show n ∈ x ↔ (if n ∈ x then [] else [(⟨n, vs⟩ : Facet)]) = [] ∧ ([] : List Request) = []
      by_cases hn : n ∈ x
      · simp [hn]
      · simp [hn]
  | byFrequency f vs => exact ⟨False.elim, fun h => absurd h.2 (List.cons_ne_nil _ _)⟩
  | byScope n v vs =>
      refine ⟨False.elim, fun h => ?_⟩
      have hrequests := h.2
      rw [requests] at hrequests
      split at hrequests
      · exact absurd hrequests (List.cons_ne_nil _ _)
      · exact absurd hrequests (List.cons_ne_nil _ _)
  | byRealm r f vs => exact ⟨False.elim, fun h => absurd h.2 (List.cons_ne_nil _ _)⟩

end Selection.Statement

namespace Query

/-- Lines come to nothing together iff each does. -/
theorem ofStatements_eq_empty_iff {x : Exclusions} {ss : List Statement} :
    ofStatements x ss = .empty ↔ ∀ s ∈ ss, s.Dropped x := by
  simp only [ofStatements, empty, Query.mk.injEq, List.flatMap_eq_nil_iff, Statement.dropped_iff]
  constructor
  · rintro ⟨hfacets, hrequests⟩ s hs
    exact ⟨hfacets s hs, hrequests s hs⟩
  · intro h
    exact ⟨fun s hs => (h s hs).1, fun s hs => (h s hs).2⟩

/-- The query that lines make, under the names of its generation. -/
def ofSelection (x : Exclusions) (ss : List Statement) : Query := (ofStatements x ss).postprocess.2

/-- Other names make no query empty. -/
theorem ofSelection_eq_empty_iff {x : Exclusions} {ss : List Statement} :
    ofSelection x ss = .empty ↔ ∀ s ∈ ss, s.Dropped x := by
  rw [← ofStatements_eq_empty_iff, ofSelection, snd_postprocess]
  split
  · simp [← isEmpty_eq_true, isEmpty, rename, mapFacets]
  · exact Iff.rfl

end Query

/-! ## All steps at once -/

namespace Conversion

variable {text : String}

/-- A text that the grammar refuses leaves nothing. -/
theorem process_of_refused {m : Mismatch} (h : Selection.events text.toList = .error m) (c : Conversion)
    (x : Exclusions) (format : Format) :
    (c.process text x format).value = (.error (.grammar m), ⟨c.path, false, [], .empty, .parsed⟩) := by
  have hstatements : statements text.toList = .error m := by
    unfold Selection.events at h
    cases hss : statements text.toList with
    | error m' =>
        rw [hss] at h
        exact congrArg Except.error (Except.error.inj h)
    | ok ss =>
        rw [hss] at h
        exact nomatch h
  simp only [process, Logged.value_bind, parse, hstatements]
  rfl

/-- A selection goes through all steps: what is left is its query, and the result is the rendering of that. -/
theorem process_of_selectionText {ss : List Statement} (h : SelectionText text.toList ss) (c : Conversion)
    (x : Exclusions) (format : Format) :
    (c.process text x format).value =
      (match (Query.ofSelection x ss).render format with
        | some rendering => .ok rendering
        | none => .error .emptyResult,
        ⟨c.path, true, eventsOf ss, .ofSelection x ss, .postprocessed⟩) := by
  have hbuild := build_eventsOf x (LinesText.named h)
  simp only [process, Logged.value_bind, parse, statements_eq_ok_iff.mpr h, translate, hbuild]
  rfl

/-- What is rendered is the query of the lines, under the names of its generation, and it is what is left. -/
theorem query_of_process {c d : Conversion} {x : Exclusions} {format : Format} {rendering : String}
    (h : (c.process text x format).value = (.ok rendering, d)) :
    ∃ ss, SelectionText text.toList ss ∧ d.query = .ofSelection x ss ∧
      d.query.render format = some rendering := by
  cases hevents : Selection.events text.toList with
  | error m =>
      rw [process_of_refused hevents] at h
      exact nomatch h
  | ok es =>
      obtain ⟨ss, hsel, -, -⟩ := exists_statements_of_events hevents
      rw [process_of_selectionText hsel] at h
      obtain ⟨hresult, rfl⟩ := Prod.mk.inj h
      refine ⟨ss, hsel, rfl, ?_⟩
      show (Query.ofSelection x ss).render format = some rendering
      cases hrender : (Query.ofSelection x ss).render format with
      | none =>
          rw [hrender] at hresult
          exact nomatch hresult
      | some s =>
          rw [hrender] at hresult
          rw [Except.ok.inj hresult]

/-! ## The three ends -/

/-- What comes of a text that is taken through all steps: the result, and the conversion that is left. -/
structure Ends (text : String) (x : Exclusions) (format : Format) (result : Except Fault String)
    (d : Conversion) : Prop where
  /-- There are three kinds of results, and a breach of the order of steps is none of them. -/
  three : (∃ m, result = .error (.grammar m)) ∨ result = .error .emptyResult ∨
    ∃ rendering, result = .ok rendering
  /-- A mismatch is that of the grammar. -/
  refused_iff : ∀ m, result = .error (.grammar m) ↔ Selection.events text.toList = .error m
  refused : ∀ m, result = .error (.grammar m) → d.success = false ∧ d.events = [] ∧ d.query = .empty
  /-- Nothing comes of a selection iff all its lines are dropped. -/
  empty_iff : result = .error .emptyResult ↔
    ∃ ss, SelectionText text.toList ss ∧ ∀ s ∈ ss, s.Dropped x
  empty : result = .error .emptyResult → d.success = true ∧ d.query = .empty
  /-- A selection with a line that is kept is rendered. -/
  rendered_iff : (∃ rendering, result = .ok rendering) ↔
    ∃ ss, SelectionText text.toList ss ∧ ∃ s ∈ ss, ¬ s.Dropped x
  rendered : ∀ rendering, result = .ok rendering →
    d.success = true ∧ d.query.render format = some rendering

/-- A text that is refused is no selection. -/
theorem not_selectionText_of_refused {m : Mismatch} (h : Selection.events text.toList = .error m)
    (ss : List Statement) : ¬ SelectionText text.toList ss := by
  intro hsel
  exact nomatch h.symm.trans (events_eq_ok_iff_selectionText.mpr ⟨ss, hsel, rfl⟩)

/-- A selection is not refused. -/
theorem events_of_selectionText {ss : List Statement} (h : SelectionText text.toList ss) :
    Selection.events text.toList = .ok (eventsOf ss) :=
  events_eq_ok_iff_selectionText.mpr ⟨ss, h, rfl⟩

theorem ends_of_refused {m : Mismatch} (h : Selection.events text.toList = .error m) (path : Path)
    (x : Exclusions) (format : Format) :
    Ends text x format (.error (.grammar m)) ⟨path, false, [], .empty, .parsed⟩ where
  three := .inl ⟨m, rfl⟩
  refused_iff m' := by
    rw [h]
    simp
  refused _ _ := ⟨rfl, rfl, rfl⟩
  empty_iff := by
    constructor
    · intro he
      exact nomatch he
    · rintro ⟨ss, hsel, -⟩
      exact absurd hsel (not_selectionText_of_refused h ss)
  empty he := nomatch he
  rendered_iff := by
    constructor
    · rintro ⟨rendering, hr⟩
      exact nomatch hr
    · rintro ⟨ss, hsel, -⟩
      exact absurd hsel (not_selectionText_of_refused h ss)
  rendered _ hr := nomatch hr

theorem ends_of_dropped {ss : List Statement} (h : SelectionText text.toList ss) {x : Exclusions}
    (hdropped : ∀ s ∈ ss, s.Dropped x) (path : Path) (format : Format) :
    Ends text x format (.error .emptyResult) ⟨path, true, eventsOf ss, .empty, .postprocessed⟩ where
  three := .inr (.inl rfl)
  refused_iff m := by
    rw [events_of_selectionText h]
    exact ⟨(nomatch ·), (nomatch ·)⟩
  refused _ hm := nomatch hm
  empty_iff := ⟨fun _ => ⟨ss, h, hdropped⟩, fun _ => rfl⟩
  empty _ := ⟨rfl, rfl⟩
  rendered_iff := by
    constructor
    · rintro ⟨rendering, hr⟩
      exact nomatch hr
    · rintro ⟨ts, hsel, s, hs, hkept⟩
      rw [h.unique hsel] at hs
      exact absurd (hdropped s hs) hkept
  rendered _ hr := nomatch hr

theorem ends_of_kept {ss : List Statement} (h : SelectionText text.toList ss) {x : Exclusions}
    (hkept : ∃ s ∈ ss, ¬ s.Dropped x) {format : Format} {rendering : String}
    (hrender : (Query.ofSelection x ss).render format = some rendering) (path : Path) :
    Ends text x format (.ok rendering)
      ⟨path, true, eventsOf ss, .ofSelection x ss, .postprocessed⟩ where
  three := .inr (.inr ⟨rendering, rfl⟩)
  refused_iff m := by
    rw [events_of_selectionText h]
    exact ⟨(nomatch ·), (nomatch ·)⟩
  refused _ hm := nomatch hm
  empty_iff := by
    constructor
    · intro he
      exact nomatch he
    · rintro ⟨ts, hsel, hdropped⟩
      obtain ⟨s, hs, hnot⟩ := hkept
      rw [← h.unique hsel] at hs
      exact absurd (hdropped s hs) hnot
  empty he := nomatch he
  rendered_iff := ⟨fun _ => ⟨ss, h, hkept⟩, fun _ => ⟨rendering, rfl⟩⟩
  rendered r hr := by
    cases hr
    exact ⟨rfl, hrender⟩

/-- **A text that is taken through all steps is refused, comes to nothing, or is rendered.** Whatever the
    conversion was before, and whatever is excluded: it is refused iff the grammar refuses the text, and then
    nothing is left; it comes to nothing iff each of its lines is a basic one with an excluded name; otherwise the
    result is the rendering of the query that is left. -/
theorem process_ends (c : Conversion) (text : String) (x : Exclusions) (format : Format) :
    Ends text x format (c.process text x format).value.1 (c.process text x format).value.2 := by
  cases hevents : Selection.events text.toList with
  | error m =>
      rw [process_of_refused hevents]
      exact ends_of_refused hevents c.path x format
  | ok es =>
      obtain ⟨ss, hsel, -, -⟩ := exists_statements_of_events hevents
      rw [process_of_selectionText hsel]
      cases hrender : (Query.ofSelection x ss).render format with
      | none =>
          have hempty := Query.render_eq_none_iff.mp hrender
          rw [hempty]
          exact ends_of_dropped hsel (Query.ofSelection_eq_empty_iff.mp hempty) c.path format
      | some rendering =>
          refine ends_of_kept hsel ?_ hrender c.path
          -- a query that is rendered is not empty, so some line is kept
          have hne : ¬ ∀ s ∈ ss, s.Dropped x := by
            rw [← Query.ofSelection_eq_empty_iff]
            intro hempty
            rw [Query.render_eq_none_iff.mpr hempty] at hrender
            exact nomatch hrender
          simpa using hne

end Conversion

end FacetQuery

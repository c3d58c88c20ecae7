import FacetQuery.Proofs.Query.Streams
import FacetQuery.Proofs.Selection.Grammar

/-!
# `FacetQuery.Proofs.Query.Meaning` — a selection means what its lines mean

Building a query keeps one facet and one request in progress, and every event may change them. What makes
the meaning of a selection the sum of the meanings of its lines is that both are empty again at the end of
every line (`Assembly.run_events`), also where a name was excluded: then the values behind it gather under
no name, and the end of the line, or of the bracket, drops them.

Main statement: `build_events`.
-/

namespace FacetQuery

open Selection

/-! ## Basic lines and variable lines -/

namespace Selection.Statement

/-- Whether the statement is a line `name=values`. -/
def isBasic : Statement → Bool
  | basic .. => true
  | byFrequency .. | byScope .. | byRealm .. => false

/-- Whether the statement gives a name where it names a facet. -/
def Named : Statement → Prop
  | basic n _ => n ≠ ""
  | byScope n _ _ => n ≠ ""
  | byFrequency .. | byRealm .. => True

theorem facets_of_not_isBasic {s : Statement} (x : Exclusions) (h : s.isBasic = false) :
    s.facets x = [] := by
  cases s with
  | basic n vs => exact nomatch h
  | byFrequency f vs => rfl
  | byScope n v vs => rfl
  | byRealm r f vs => rfl

theorem requests_of_isBasic {s : Statement} (x : Exclusions) (h : s.isBasic = true) :
    s.requests x = [] := by
  cases s with
  | basic n vs => rfl
  | byFrequency f vs => exact nomatch h
  | byScope n v vs => exact nomatch h
  | byRealm r f vs => exact nomatch h

end Selection.Statement

theorem Selection.IsWord.ofList_ne_empty {w : List Char} (h : IsWord w) : String.ofList w ≠ "" := by
  intro he
  exact h.1 (by simpa using congrArg String.toList he)

theorem Selection.StatementText.named {text : List Char} {s : Statement} (h : StatementText text s) :
    s.Named := by
  cases h with
  | basic hn => exact hn.ofList_ne_empty
  | byFrequency => trivial
  | byScope _ hn => exact hn.ofList_ne_empty
  | byRealm => trivial

/-- Every statement of a selection stands on a line of its own. -/
theorem Selection.LinesText.exists_statementText {lines : List (List Char)} {ss : List Statement}
    (h : LinesText lines ss) : ∀ s ∈ ss, ∃ text, StatementText text s := by
  induction h with
  | nil => exact fun _ h => nomatch h
  | @cons line made lines ss hl _ ih =>
      intro s hs
      rcases List.mem_append.mp hs with hs | hs
      · cases hl with
        | blank => exact nomatch hs
        | comment => exact nomatch hs
        | statement _ htext =>
            rw [Option.toList_some, List.mem_singleton] at hs
            subst hs
            exact ⟨_, htext⟩
      · exact ih s hs

theorem Selection.LinesText.named {lines : List (List Char)} {ss : List Statement}
    (h : LinesText lines ss) : ∀ s ∈ ss, s.Named := by
  intro s hs
  obtain ⟨text, htext⟩ := h.exists_statementText s hs
  exact htext.named

/-! ## One line -/

namespace Query

/-- The query that lines make, each on its own. -/
def ofStatements (x : Exclusions) (ss : List Statement) : Query :=
  ⟨ss.flatMap (·.facets x), ss.flatMap (·.requests x)⟩

/-- Basic lines alone decide the root facets, the other lines alone the requests. -/
theorem ofStatements_eq_filter (x : Exclusions) (ss : List Statement) :
    ofStatements x ss = ⟨(ss.filter (·.isBasic)).flatMap (·.facets x),
      (ss.filter (!·.isBasic)).flatMap (·.requests x)⟩ := by
  induction ss with
  | nil => rfl
  | cons s ss ih =>
      simp only [ofStatements, Query.mk.injEq] at ih
      simp only [ofStatements, List.flatMap_cons, ih.1, ih.2]
      cases hs : s.isBasic with
      | true =>
          rw [s.requests_of_isBasic x hs]
          simp [hs]
      | false =>
          rw [s.facets_of_not_isBasic x hs]
          simp [hs]

end Query

namespace Assembly

variable (x : Exclusions)

theorem run_values (a : Assembly) (vs : List String) :
    run x a (vs.map .value) = { a with facet.values := a.facet.values ++ vs } := by
  induction vs generalizing a with
  | nil => simp
  | cons v vs ih =>
      rw [List.map_cons, run_cons, ih]
      simp [step]

/-- The end of a basic line commits the facet if it has a name. -/
theorem run_basic_values (n : String) (q : Query) (vs : List String) :
    run x ⟨⟨n, []⟩, [], q⟩ (vs.map .value ++ [.stop])
      = idle (q ++ ⟨if n ≠ "" then [⟨n, vs⟩] else [], []⟩) := by
  rw [run_append, run_values, Query.append_mk, List.append_nil]
  by_cases hn : n = ""
  · simp [step, commit, hn]
  · simp [step, commit, hn]

/-- The end of a bracketed line: its values become the last facet of the request in progress, and the
    request is committed. -/
theorem run_variable_values (r : Request) (q : Query) (vs : List String) :
    run x ⟨.blank, r, q⟩ (vs.map .value ++ [.variableStop, .stop])
      = idle (q ++ ⟨[], [r ++ [⟨"variable", vs⟩]]⟩) := by
  rw [run_append, run_values, Query.append_mk, List.append_nil]
  simp [step, push, reset, commit, Facet.blank]

/-- A line takes an idle state to an idle state: what it contributes is committed, nothing else is left. -/
theorem run_events {s : Statement} (hs : s.Named) (q : Query) :
    run x (idle q) s.events = idle (q ++ ⟨s.facets x, s.requests x⟩) := by
  cases s with
  | basic n vs =>
      by_cases hn : n ∈ x
      · -- the name is gone at once, so the values gather under no name
        have hstep : step x (idle q) (.name n) = ⟨⟨"", []⟩, [], q⟩ := by
          simp [step, hn, reset, idle, Facet.blank]
        rw [Statement.events, List.cons_append, run_cons, hstep, run_basic_values]
        simp [Statement.facets, Statement.requests, hn]
      · have hstep : step x (idle q) (.name n) = ⟨⟨n, []⟩, [], q⟩ := by
          simp [step, hn, idle, Facet.blank]
        have hname : n ≠ "" := hs
        rw [Statement.events, List.cons_append, run_cons, hstep, run_basic_values]
        simp [Statement.facets, Statement.requests, hn, hname]
  | byFrequency f vs =>
      have hstep : step x (idle q) (.frequency f) = ⟨.blank, [⟨"frequency", [f]⟩], q⟩ := by
        simp [step, push, idle]
      rw [Statement.events, List.cons_append, run_cons, hstep, run_variable_values]
      rfl
  | byScope n v vs =>
      rw [Statement.events, List.cons_append, List.cons_append, List.cons_append, run_cons, run_cons,
        run_cons]
      by_cases hn : n ∈ x
      · -- the value of the excluded name is dropped where the bracket ends
        have hsteps : step x (step x (step x (idle q) (.name n)) (.value v)) .requestStop
            = ⟨.blank, [], q⟩ := by
          simp [step, hn, reset, idle, Facet.blank]
        rw [hsteps, run_variable_values]
        simp [Statement.facets, Statement.requests, hn]
      · have hname : n ≠ "" := hs
        have hsteps : step x (step x (step x (idle q) (.name n)) (.value v)) .requestStop
            = ⟨.blank, [⟨n, [v]⟩], q⟩ := by
          simp [step, hn, hname, push, reset, idle, Facet.blank]
        rw [hsteps, run_variable_values]
        simp [Statement.facets, Statement.requests, hn]
  | byRealm r f vs =>
      have hsteps : step x (step x (idle q) (.realm r)) (.frequency f)
          = ⟨.blank, [⟨"realm", [r]⟩, ⟨"frequency", [f]⟩], q⟩ := by
        simp [step, push, idle]
      rw [Statement.events, List.cons_append, List.cons_append, run_cons, run_cons, hsteps,
        run_variable_values]
      rfl

/-! ## All lines -/

/-- The state is idle at the end of every line, on the query of the lines so far. -/
theorem run_eventsOf {ss : List Statement} (hs : ∀ s ∈ ss, s.Named) (q : Query) :
    run x (idle q) (eventsOf ss) = idle (q ++ Query.ofStatements x ss) := by
  induction ss generalizing q with
  | nil => rw [Query.ofStatements, List.flatMap_nil, List.flatMap_nil, Query.append_nil]; rfl
  | cons s ss ih =>
      have hsplit : eventsOf (s :: ss) = s.events ++ eventsOf ss := List.flatMap_cons
      rw [hsplit, run_append, run_events x (hs s (by simp)),
        ih fun t ht => hs t (List.mem_cons_of_mem s ht), Query.append_assoc]
      rfl

end Assembly

theorem null_not_mem_eventsOf (ss : List Statement) : Event.null ∉ eventsOf ss := by
  intro h
  obtain ⟨s, _, hs⟩ := List.mem_flatMap.mp h
  exact s.null_not_mem_events hs

/-- The stream of any lines builds the query of those lines. -/
theorem build_eventsOf (x : Exclusions) {ss : List Statement} (hs : ∀ s ∈ ss, s.Named) :
    build x (eventsOf ss) = .ok (Query.ofStatements x ss) := by
  rw [build_eq_ok_iff, Assembly.run_eventsOf x hs, Query.empty_append]
  exact ⟨null_not_mem_eventsOf ss, rfl⟩

/-- The lines of a text that has a stream, and that the stream is theirs. -/
theorem exists_statements_of_events {text : List Char} {es : List Event} (h : events text = .ok es) :
    ∃ ss, SelectionText text ss ∧ (∀ s ∈ ss, s.Named) ∧ es = eventsOf ss := by
  obtain ⟨ss, hsel, hes⟩ := events_eq_ok_iff_selectionText.mp h
  exact ⟨ss, hsel, LinesText.named hsel, hes.symm⟩

theorem Selection.SelectionText.unique {text : List Char} {ss ts : List Statement} (hs : SelectionText text ss)
    (ht : SelectionText text ts) : ts = ss := by
  have h := (statements_eq_ok_iff.mpr ht).symm.trans (statements_eq_ok_iff.mpr hs)
  injection h

/-- **A selection means what its lines mean.** The stream of a text that can be read builds a query,
    whatever is excluded: the root facets of its lines and their requests, each in the order of the lines.
    Hence two texts with the same basic lines and the same variable lines, however the ones stand among
    the others, build the same query. -/
theorem build_events {text : List Char} {es : List Event} (h : events text = .ok es) (x : Exclusions) :
    ∃ ss, (SelectionText text ss ∧ ∀ ts, SelectionText text ts → ts = ss) ∧
      build x es = .ok ⟨ss.flatMap (·.facets x), ss.flatMap (·.requests x)⟩ ∧
      ∀ text' fs ts, events text' = .ok fs → SelectionText text' ts →
        ts.filter (·.isBasic) = ss.filter (·.isBasic) →
        ts.filter (!·.isBasic) = ss.filter (!·.isBasic) → build x fs = build x es := by
  obtain ⟨ss, hsel, hnamed, rfl⟩ := exists_statements_of_events h
  refine ⟨ss, ⟨hsel, fun ts ht => hsel.unique ht⟩, build_eventsOf x hnamed, ?_⟩
  intro text' fs ts h' ht hbasic hvariable
  obtain ⟨ts', hsel', hnamed', rfl⟩ := exists_statements_of_events h'
  obtain rfl := hsel'.unique ht
  rw [build_eventsOf x hnamed, build_eventsOf x hnamed', Query.ofStatements_eq_filter x ts,
    Query.ofStatements_eq_filter x ss, hbasic, hvariable]

/-- A text with a line of each form, where the excluded name is that of a line and that of a scope. -/
theorem build_events_four_forms :
    ∃ es, events "p=C,C\nvariable[n=1]=t\r\nn=1\n # x\nvariable [o][O] = a,b\nvariable[A]=r\nm=I".toList
        = .ok es ∧
      ∃ ss, SelectionText
          "p=C,C\nvariable[n=1]=t\r\nn=1\n # x\nvariable [o][O] = a,b\nvariable[A]=r\nm=I".toList ss ∧
        build ["n"] es = .ok ⟨ss.flatMap (·.facets ["n"]), ss.flatMap (·.requests ["n"])⟩ := by
  have hread : (events "p=C,C\nvariable[n=1]=t\r\nn=1\n # x\nvariable [o][O] = a,b\nvariable[A]=r\nm=I".toList
      ).toOption = some [.name "p", .value "C", .value "C", .stop, .name "n", .value "1", .requestStop,
        .value "t", .variableStop, .stop, .name "n", .value "1", .stop, .realm "o", .frequency "O",
        .value "a", .value "b", .variableStop, .stop, .frequency "A", .value "r", .variableStop, .stop,
        .name "m", .value "I", .stop] := by decide +kernel
  cases h : events "p=C,C\nvariable[n=1]=t\r\nn=1\n # x\nvariable [o][O] = a,b\nvariable[A]=r\nm=I".toList with
  | error f =>
      rw [h] at hread
      cases hread
  | ok es =>
      obtain ⟨ss, hsel, hbuild, _⟩ := build_events h ["n"]
      exact ⟨es, rfl, ss, hsel.1, hbuild⟩

end FacetQuery

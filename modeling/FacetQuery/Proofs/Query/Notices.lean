import Mathlib.Data.List.Nodup
import FacetQuery.Proofs.Conversion.Ends
import FacetQuery.Proofs.Query.Repeats

/-!
# `FacetQuery.Proofs.Query.Notices` — the notices on repeated values

A facet is looked at for repeated values in three places: where a line ends, where a bracket ends, and where a
bracketed line closes its values. A line passes more than one of them, and what is looked at may belong to an
excluded name. Still each line is told of at most once, and only for what it contributes:

* at the end of a bracketed line the facet in progress is empty, as its values went into the request before;
* a scope has one value, so it repeats none;
* what gathers under an excluded name has no name, and a facet without a name is never looked at.

So the notices of a selection are those on the facets that hold the values of its lines
(`Selection.Statement.valued?`), in the order of the lines. They tell the names before any renaming, because a
query is renamed only after it was built.

## Contents
- `Facet.repeatNotice?`, the notice on a facet, and `LogEvent.isRepeatNotice`, by which a reader finds it.
- `Assembly.repeats`: the notices on repeated values while a stream is built; one event, one line, all lines.
- `Conversion.repeats_noticed`.
-/

namespace FacetQuery

open Selection

/-! ## Notices -/

namespace Facet

theorem duplicates_eq_nil_iff {f : Facet} : f.duplicates = [] ↔ f.values.Nodup := by
  rw [List.eq_nil_iff_forall_not_mem, List.nodup_iff_count_le_one]
  refine forall_congr' fun v => ?_
  rw [mem_duplicates]
  omega

/-- The notice on a facet that holds a value twice: its name, and the values that it repeats. -/
def repeatNotice? (f : Facet) : Option LogEvent :=
  if f.values.Nodup then none
  else some ⟨.warn, .translate, "duplicate values",
    [("facet", f.name), ("duplicates", bracketed Text.quoted f.duplicates)]⟩

@[simp] theorem repeatNotice?_singleton (n v : String) : repeatNotice? ⟨n, [v]⟩ = none := by
  simp [repeatNotice?]

end Facet

/-- Whether the event is a warning of repeated values. -/
def LogEvent.isRepeatNotice (e : LogEvent) : Bool :=
  e.level == .warn && e.message == "duplicate values"

/-- The facet that holds the values of a line: the last one that it contributes, which is its root facet or the
    variable's own facet in its request. An excluded basic line contributes none. -/
def Selection.Statement.valued? (x : Exclusions) (s : Statement) : Option Facet :=
  (s.facets x ++ (s.requests x).flatten).getLast?

/-- The notice on a line: that on the facet that holds its values. -/
def Selection.Statement.repeatNotice? (x : Exclusions) (s : Statement) : Option LogEvent :=
  (s.valued? x).bind Facet.repeatNotice?

theorem Selection.Statement.valued?_eq (x : Exclusions) (s : Statement) :
    s.valued? x = match s with
      | .basic n vs => if n ∈ x then none else some ⟨n, vs⟩
      | .byFrequency _ vs | .byScope _ _ vs | .byRealm _ _ vs => some ⟨"variable", vs⟩ := by
  cases s with
  | basic n vs => by_cases hn : n ∈ x <;> simp [valued?, facets, requests, hn]
  | byFrequency f vs => rfl
  | byScope n v vs => by_cases hn : n ∈ x <;> simp [valued?, facets, requests, hn]
  | byRealm r f vs => rfl

/-! ## What is reported while a stream is built -/

namespace Assembly

variable {x : Exclusions}

theorem repeatNotice_eq (f : Facet) : repeatNotice Text.quoted f = f.repeatNotice?.toList := by
  unfold repeatNotice Facet.repeatNotice?
  by_cases h : f.duplicates = []
  · rw [if_pos (List.isEmpty_iff.mpr h), if_pos (Facet.duplicates_eq_nil_iff.mp h)]
    rfl
  · rw [if_neg (mt List.isEmpty_iff.mp h), if_neg (mt Facet.duplicates_eq_nil_iff.mpr h)]
    rfl

/-- The facet that is looked at for repeated values when an event meets a state. -/
def inspected? (a : Assembly) : Event → Option Facet
  | .requestStop => if a.facet.name ≠ "" then some a.facet else none
  | .variableStop => some ⟨"variable", a.facet.values⟩
  | .stop => if a.request = [] ∧ a.facet.name ≠ "" then some a.facet else none
  | .null | .name _ | .value _ | .realm _ | .frequency _ => none

/-- Of what an event has reported, the notice on the facet that is looked at is all that is on repeated
    values. -/
theorem filter_notices (a : Assembly) (e : Event) :
    (notices Text.quoted x a e).filter LogEvent.isRepeatNotice =
      ((a.inspected? e).bind Facet.repeatNotice?).toList := by
  have hfilter (f : Facet) :
      (repeatNotice Text.quoted f).filter LogEvent.isRepeatNotice = f.repeatNotice?.toList := by
    rw [repeatNotice_eq, Facet.repeatNotice?]
    split
    · rfl
    · rfl
  cases e with
  | null | value | realm | frequency => rfl
  | name n =>
      show (if n ∈ x then [_] else ([] : Log)).filter LogEvent.isRepeatNotice = []
      split
      · rfl
      · rfl
  | variableStop => exact hfilter _
  | requestStop =>
      show (if a.facet.name ≠ "" then _ else ([] : Log)).filter _ = _
      unfold inspected?
      split
      · exact hfilter _
      · rfl
  | stop =>
      show (if a.request = [] ∧ a.facet.name ≠ "" then _ else ([] : Log)).filter _ = _
      unfold inspected?
      split
      · exact hfilter _
      · rfl

/-- The notices on repeated values while a stream is built from a state. -/
def repeats (x : Exclusions) (a : Assembly) (es : List Event) : Log :=
  (trail Text.quoted x a 0 es).filter LogEvent.isRepeatNotice

@[simp] theorem repeats_nil (a : Assembly) : repeats x a [] = [] := rfl

/-- The event on a single step, which tells the place, is none of them. -/
theorem filter_trail_cons (a : Assembly) (place : Nat) (e : Event) (es : List Event) :
    (trail Text.quoted x a place (e :: es)).filter LogEvent.isRepeatNotice =
      ((a.inspected? e).bind Facet.repeatNotice?).toList ++ if e = .null then []
        else (trail Text.quoted x (step x a e) (place + 1) es).filter LogEvent.isRepeatNotice := by
  rw [trail, List.filter_cons_of_neg (by simp [LogEvent.isRepeatNotice]), List.filter_append, filter_notices]
  split
  · rfl
  · rfl

/-- They do not depend on where the counting of the events starts. -/
theorem filter_trail (a : Assembly) (place : Nat) (es : List Event) :
    (trail Text.quoted x a place es).filter LogEvent.isRepeatNotice = repeats x a es := by
  induction es generalizing a place with
  | nil => rfl
  | cons e es ih =>
      unfold repeats
      rw [filter_trail_cons, filter_trail_cons, ih, ih]

theorem repeats_cons (a : Assembly) {e : Event} (he : e ≠ .null) (es : List Event) :
    repeats x a (e :: es) =
      ((a.inspected? e).bind Facet.repeatNotice?).toList ++ repeats x (step x a e) es := by
  unfold repeats
  rw [filter_trail_cons, if_neg he, filter_trail]
  rfl

/-- What stands behind a stream is reported behind it. -/
theorem repeats_append (a : Assembly) {es : List Event} (h : .null ∉ es) (fs : List Event) :
    repeats x a (es ++ fs) = repeats x a es ++ repeats x (run x a es) fs := by
  induction es generalizing a with
  | nil => rfl
  | cons e es ih =>
      rw [List.mem_cons, not_or] at h
      rw [List.cons_append, repeats_cons a (Ne.symm h.1), repeats_cons a (Ne.symm h.1), run_cons, ih _ h.2,
        List.append_assoc]

/-! ## One line -/

/-- Values are looked at only when their facet is. -/
theorem repeats_values (a : Assembly) (vs : List String) (es : List Event) :
    repeats x a (vs.map .value ++ es) =
      repeats x { a with facet.values := a.facet.values ++ vs } es := by
  induction vs generalizing a with
  | nil => simp
  | cons v vs ih =>
      rw [List.map_cons, List.cons_append, repeats_cons a (by simp)]
      show [] ++ repeats x { a with facet.values := a.facet.values ++ [v] } (vs.map .value ++ es) = _
      rw [ih]
      simp

/-- The end of a basic line looks at its facet, if it has a name. -/
theorem repeats_basic_values (n : String) (q : Query) (vs : List String) :
    repeats x ⟨⟨n, []⟩, [], q⟩ (vs.map .value ++ [.stop]) =
      if n ≠ "" then (Facet.repeatNotice? ⟨n, vs⟩).toList else [] := by
  rw [repeats_values, repeats_cons _ (by simp)]
  by_cases hn : n = ""
  · simp [inspected?, hn]
  · simp [inspected?, hn]

/-- In a bracketed line the variable's own facet is looked at where the values are closed, and nothing at the
    end. -/
theorem repeats_variable_values (r : Request) (q : Query) (vs : List String) :
    repeats x ⟨.blank, r, q⟩ (vs.map .value ++ [.variableStop, .stop]) =
      (Facet.repeatNotice? ⟨"variable", vs⟩).toList := by
  rw [repeats_values, repeats_cons _ (by simp), repeats_cons _ (by simp)]
  simp [inspected?, step, push, reset, Facet.blank]

/-- A line is told of once, for the facet that holds its values, or not at all. -/
theorem repeats_events {s : Statement} (hs : s.Named) (q : Query) :
    repeats x (idle q) s.events = (s.repeatNotice? x).toList := by
  unfold Statement.repeatNotice?
  rw [s.valued?_eq x]
  cases s with
  | basic n vs =>
      rw [Statement.events, List.cons_append, repeats_cons _ (by simp)]
      by_cases hn : n ∈ x
      · -- the name is gone at once, so the values gather under no name
        have hstep : step x (idle q) (.name n) = ⟨⟨"", []⟩, [], q⟩ := by
          simp [step, hn, reset, idle, Facet.blank]
        rw [hstep, repeats_basic_values]
        simp [inspected?, hn]
      · have hstep : step x (idle q) (.name n) = ⟨⟨n, []⟩, [], q⟩ := by
          simp [step, hn, idle, Facet.blank]
        have hname : n ≠ "" := hs
        rw [hstep, repeats_basic_values]
        simp [inspected?, hn, hname]
  | byFrequency f vs =>
      rw [Statement.events, List.cons_append, repeats_cons _ (by simp)]
      exact repeats_variable_values _ q vs
  | byScope n v vs =>
      rw [Statement.events, List.cons_append, List.cons_append, List.cons_append, repeats_cons _ (by simp),
        repeats_cons _ (by simp), repeats_cons _ (by simp)]
      by_cases hn : n ∈ x
      · -- the value of the excluded name is dropped where the bracket ends, and not looked at
        have hsteps : step x (step x (idle q) (.name n)) (.value v) = ⟨⟨"", [v]⟩, [], q⟩ := by
          simp [step, hn, reset, idle, Facet.blank]
        rw [hsteps]
        exact repeats_variable_values [] q vs
      · have hname : n ≠ "" := hs
        have hsteps : step x (step x (idle q) (.name n)) (.value v) = ⟨⟨n, [v]⟩, [], q⟩ := by
          simp [step, hn, idle, Facet.blank]
        have hbracket : step x ⟨⟨n, [v]⟩, [], q⟩ .requestStop = ⟨.blank, [⟨n, [v]⟩], q⟩ := by
          simp [step, hname, push, reset]
        rw [hsteps, hbracket, repeats_variable_values]
        simp [inspected?, hname]
  | byRealm r f vs =>
      rw [Statement.events, List.cons_append, List.cons_append, repeats_cons _ (by simp),
        repeats_cons _ (by simp)]
      exact repeats_variable_values _ q vs

/-! ## All lines -/

/-- The lines are told of one after the other, whatever was committed before. -/
theorem repeats_eventsOf {ss : List Statement} (hs : ∀ s ∈ ss, s.Named) (q : Query) :
    repeats x (idle q) (eventsOf ss) = ss.filterMap (·.repeatNotice? x) := by
  induction ss generalizing q with
  | nil => rfl
  | cons s ss ih =>
      rw [List.forall_mem_cons] at hs
      have hsplit : eventsOf (s :: ss) = s.events ++ eventsOf ss := List.flatMap_cons
      rw [hsplit, repeats_append _ s.null_not_mem_events, repeats_events hs.1, run_events x hs.1,
        ih hs.2, List.filterMap_cons]
      cases s.repeatNotice? x with
      | none => rfl
      | some e => rfl

end Assembly

/-! ## A conversion -/

/-- No value is lost or changed by other names. -/
theorem Query.values_ofSelection (x : Exclusions) (ss : List Statement) :
    (ofSelection x ss).allFacets.map (·.values) = (ofStatements x ss).allFacets.map (·.values) := by
  unfold ofSelection
  rw [snd_postprocess]
  split
  · rw [rename, allFacets_mapFacets, List.map_map]
    rfl
  · rfl

namespace Conversion

variable {text : String} {ss : List Statement}

theorem log_parse (h : SelectionText text.toList ss) (c : Conversion) :
    (c.parse text).log.filter LogEvent.isRepeatNotice = [] := by
  unfold parse
  rw [statements_eq_ok_iff.mpr h]
  rfl

theorem log_postprocess (c : Conversion) :
    c.postprocess.log.filter LogEvent.isRepeatNotice = [] := by
  unfold postprocess Query.postprocess
  split
  · split
    · rfl
    · cases c.query.targetsCmip6 with
      | true => rfl
      | false => rfl
  · rfl

/-- A selection that was read is translated to the query of its lines, and the notices are those on its lines. -/
theorem translate_parse (h : SelectionText text.toList ss) (c : Conversion) (x : Exclusions) :
    ((c.parse text).value.2.translate x).value.1 = .ok (Query.ofStatements x ss) ∧
      ((c.parse text).value.2.translate x).log.filter LogEvent.isRepeatNotice =
        ss.filterMap (·.repeatNotice? x) := by
  have hnamed := LinesText.named h
  have hlog : ((c.parse text).value.2.translate x) = ⟨(.ok (Query.ofStatements x ss),
      ⟨c.path, true, eventsOf ss, Query.ofStatements x ss, .translated⟩),
      Assembly.trail Text.quoted x (.idle .empty) 0 (eventsOf ss)⟩ := by
    simp only [parse, statements_eq_ok_iff.mpr h, translate, build_eventsOf x hnamed]
    rfl
  rw [hlog]
  exact ⟨rfl, Assembly.repeats_eventsOf hnamed .empty⟩

/-- Of all steps only the translation tells of repeated values. -/
theorem log_process (h : SelectionText text.toList ss) (c : Conversion) (x : Exclusions) (format : Format) :
    (c.process text x format).log.filter LogEvent.isRepeatNotice = ss.filterMap (·.repeatNotice? x) := by
  obtain ⟨d, hparse⟩ : ∃ d, (c.parse text).value = (.ok (), d) := by
    unfold parse
    rw [statements_eq_ok_iff.mpr h]
    exact ⟨_, rfl⟩
  obtain ⟨hquery, hlog⟩ := translate_parse h c x
  rw [hparse] at hquery hlog
  obtain ⟨e, htranslate⟩ : ∃ e, (d.translate x).value = (.ok (Query.ofStatements x ss), e) :=
    ⟨_, Prod.ext hquery rfl⟩
  -- whatever the last two steps come to, nothing is told after them
  have hlast : (c.process text x format).log =
      (c.parse text).log ++ ((d.translate x).log ++ e.postprocess.log) := by
    simp only [process, Logged.log_bind, hparse, htranslate]
    cases e.postprocess.value with
    | mk result last =>
        cases result with
        | error f => simp
        | ok applied => simp
  rw [hlast, List.filter_append, List.filter_append, log_parse h, hlog, log_postprocess, List.nil_append,
    List.append_nil]

/-- **The notices on repeated values are exact.** While a selection is translated, whatever is excluded and
    whatever was converted before, the warnings of repeated values are those on its lines, in the order of the
    lines: one for each line whose root facet, or whose variable's own facet, holds a value twice, with the name
    and the repeated values of that facet, and none for any other line. Taking the selection through all steps
    adds none and changes none, although the facets may get other names. The query keeps the values of every
    facet as they were read, repeated ones too, before and after it gets other names. -/
theorem repeats_noticed {es : List Event} (h : Selection.events text.toList = .ok es) (c : Conversion)
    (x : Exclusions) :
    ∃ ss, (SelectionText text.toList ss ∧ ∀ ts, SelectionText text.toList ts → ts = ss) ∧
      ((c.parse text).value.2.translate x).log.filter LogEvent.isRepeatNotice =
        ss.filterMap (·.repeatNotice? x) ∧
      ((c.parse text).value.2.translate x).value.1 =
        .ok ⟨ss.flatMap (·.facets x), ss.flatMap (·.requests x)⟩ ∧
      ∀ format, (c.process text x format).log.filter LogEvent.isRepeatNotice =
          ss.filterMap (·.repeatNotice? x) ∧
        (c.process text x format).value.2.query.allFacets.map (·.values) =
          (ss.flatMap (·.facets x) ++ (ss.flatMap (·.requests x)).flatten).map (·.values) := by
  obtain ⟨ss, hsel, -, -⟩ := exists_statements_of_events h
  obtain ⟨hquery, hlog⟩ := translate_parse hsel c x
  refine ⟨ss, ⟨hsel, fun ts ht => hsel.unique ht⟩, hlog, hquery, fun format => ⟨log_process hsel c x format, ?_⟩⟩
  rw [process_of_selectionText hsel]
  exact Query.values_ofSelection x ss

/-- A CMIP6 selection in which four lines repeat values; the excluded name is that of one of them, and of a
    scope. -/
def repeatingText : String :=
  "project=CMIP6\nmodel=A,B,B,A\nn=1,1\nvariable[n=1]=t,t\nvariable[o][O]=a,b\nvariable[A]=r,s,r"

/-- Three lines of the selection are told of, under the names that they had when the query was built. -/
theorem repeats_noticed_repeatingText :
    ∃ es, Selection.events repeatingText.toList = .ok es ∧
      ((start ⟨"a.txt"⟩).process repeatingText ["n"] .text).log.filter LogEvent.isRepeatNotice =
        [⟨.warn, .translate, "duplicate values", [("facet", "model"), ("duplicates", "[\"B\", \"A\"]")]⟩,
          ⟨.warn, .translate, "duplicate values", [("facet", "variable"), ("duplicates", "[\"t\"]")]⟩,
          ⟨.warn, .translate, "duplicate values", [("facet", "variable"), ("duplicates", "[\"r\"]")]⟩] := by
  have hread : (statements repeatingText.toList).toOption =
      some [.basic "project" ["CMIP6"], .basic "model" ["A", "B", "B", "A"], .basic "n" ["1", "1"],
        .byScope "n" "1" ["t", "t"], .byRealm "o" "O" ["a", "b"], .byFrequency "A" ["r", "s", "r"]] := by
    decide +kernel
  cases hstatements : statements repeatingText.toList with
  | error m =>
      rw [hstatements] at hread
      exact nomatch hread
  | ok ss =>
      rw [hstatements] at hread
      cases hread
      have hsel := statements_eq_ok_iff.mp hstatements
      have hevents := events_of_selectionText hsel
      obtain ⟨ts, ⟨-, hunique⟩, -, -, hprocess⟩ := repeats_noticed hevents (start ⟨"a.txt"⟩) ["n"]
      cases hunique _ hsel
      refine ⟨_, hevents, (hprocess .text).1.trans ?_⟩
      decide +kernel

end Conversion

end FacetQuery

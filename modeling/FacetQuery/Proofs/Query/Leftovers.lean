import Mathlib.Data.List.Induction
import FacetQuery.Proofs.Query.Streams

/-!
# `FacetQuery.Proofs.Query.Leftovers` — what a stream leaves in progress, and what exclusion has to do with it

A stream is refused for a `null`, or because something is in progress at its end. What is in progress there can be
told from the events alone, without following them: an event has left it, and none behind it has taken it away
(`Leaves`). There are three such things, an open request, a name and values, and a stream that leaves none of them
is finished (`Unfinished`).

Exclusion bears on all three, but in one direction only. An excluded name is not left, so a bracket that ends behind
it opens no request; and it takes away the values in front of it. So the more is excluded, the less is left
(`Unfinished.anti`): exclusion never makes a stream end too early, but it lets a stream pass that does. Which streams
these are depends on what is left when every name is excluded (`Forgivable`): a request that was opened by anything
but a scope, and values behind the last name, stay whatever is excluded.

Main statement: `exclusions_agree_iff`.
-/

namespace FacetQuery

/-! ## What is left, told by the events -/

/-- Some event of the stream leaves a thing behind those in front of it, and no later one takes it away. -/
def Leaves (leaves : List Event → Event → Prop) (takes : Event → Prop) (es : List Event) : Prop :=
  ∃ before e behind, es = before ++ e :: behind ∧ leaves before e ∧ ∀ f ∈ behind, ¬ takes f

section Leaves

variable {leaves leaves' : List Event → Event → Prop} {takes takes' : Event → Prop} {es : List Event}

theorem not_leaves_nil : ¬ Leaves leaves takes [] := by
  rintro ⟨before, e, behind, heq, -⟩
  exact absurd heq.symm (List.append_ne_nil_of_right_ne_nil before (List.cons_ne_nil e behind))

/-- The last event leaves the thing, or it was left before and the last event does not take it away. -/
theorem leaves_concat {e : Event} :
    Leaves leaves takes (es ++ [e]) ↔ leaves es e ∨ ¬ takes e ∧ Leaves leaves takes es := by
  constructor
  · rintro ⟨before, f, behind, heq, hleaves, hkept⟩
    rcases List.eq_nil_or_concat behind with rfl | ⟨behind, g, rfl⟩
    · obtain ⟨rfl, hf⟩ := List.append_inj' heq rfl
      cases hf
      exact .inl hleaves
    · rw [List.concat_eq_append] at heq hkept
      rw [← List.cons_append, ← List.append_assoc] at heq
      obtain ⟨hes, hg⟩ := List.append_inj' heq rfl
      cases hg
      exact .inr ⟨hkept e (by simp), before, f, behind, hes, hleaves,
        fun g hg => hkept g (List.mem_append_left _ hg)⟩
  · rintro (hleaves | ⟨hkept, before, f, behind, rfl, hleaves, hbehind⟩)
    · exact ⟨es, e, [], rfl, hleaves, fun _ h => nomatch h⟩
    · refine ⟨before, f, behind ++ [e], by simp, hleaves, fun g hg => ?_⟩
      rcases List.mem_append.mp hg with hg | hg
      · exact hbehind g hg
      · rw [List.mem_singleton.mp hg]
        exact hkept

/-- Where more is left and less is taken away, the thing is left as well. -/
theorem Leaves.mono (h : Leaves leaves takes es)
    (hleaves : ∀ before e behind, es = before ++ e :: behind → leaves before e → leaves' before e)
    (htakes : ∀ e ∈ es, takes' e → takes e) : Leaves leaves' takes' es := by
  obtain ⟨before, e, behind, rfl, he, hbehind⟩ := h
  exact ⟨before, e, behind, rfl, hleaves before e behind rfl he, fun f hf htake =>
    hbehind f hf (htakes f (List.mem_append_right _ (List.mem_cons_of_mem e hf)) htake)⟩

end Leaves

namespace Event

/-- The event opens a request, whatever stands in front of it. -/
def Opens : Event → Prop
  | realm _ | frequency _ | variableStop => True
  | null | stop | requestStop | name _ | value _ => False

/-- The event names a facet that is kept. -/
def Names (x : Exclusions) : Event → Prop
  | name n => n ≠ "" ∧ n ∉ x
  | null | stop | requestStop | value _ | realm _ | frequency _ | variableStop => False

/-- The event gives a value to the facet in progress. -/
def Gives : Event → Prop
  | value _ => True
  | null | stop | requestStop | name _ | realm _ | frequency _ | variableStop => False

/-- The event does away with the name of the facet in progress. -/
def Renames : Event → Prop
  | name _ | requestStop | variableStop | stop => True
  | null | value _ | realm _ | frequency _ => False

/-- The event does away with the values of the facet in progress. -/
def Clears (x : Exclusions) : Event → Prop
  | name n => n ∈ x
  | requestStop | variableStop | stop => True
  | null | value _ | realm _ | frequency _ => False

/-- What does away with values does away with a name. -/
theorem Clears.renames {x : Exclusions} {e : Event} (h : e.Clears x) : e.Renames := by
  cases e with
  | name n => trivial
  | requestStop => trivial
  | variableStop => trivial
  | stop => trivial
  | null => exact h
  | value v => exact h
  | realm r => exact h
  | frequency f => exact h

end Event

/-- The stream ends in a facet that has a name. -/
def EndsNamed (x : Exclusions) : List Event → Prop := Leaves (fun _ => Event.Names x) Event.Renames

/-- The event opens a request behind the events in front of it: by itself, or as the end of a scope that has a name. -/
def OpensBehind (x : Exclusions) (before : List Event) (e : Event) : Prop :=
  e.Opens ∨ e = .requestStop ∧ EndsNamed x before

/-- Something is in progress at the end of the stream. -/
inductive Unfinished (x : Exclusions) (es : List Event) : Prop
  /-- A request was opened, and no line has ended since. -/
  | request (h : Leaves (OpensBehind x) (· = .stop) es)
  /-- A facet was named. -/
  | named (h : EndsNamed x es)
  /-- Values were given. -/
  | valued (h : Leaves (fun _ => Event.Gives) (Event.Clears x) es)

/-! ## What is left is what is in progress -/

namespace Assembly

variable {x : Exclusions} {q : Query}

theorem run_concat (a : Assembly) (es : List Event) (e : Event) :
    run x a (es ++ [e]) = step x (run x a es) e := by
  rw [run_append]
  rfl

@[simp] theorem facet_idle (q : Query) : (idle q).facet = .blank := rfl

@[simp] theorem request_idle (q : Query) : (idle q).request = [] := rfl

/-- Nothing is in progress behind the end of a line. -/
theorem exists_commit_eq (a : Assembly) : ∃ q, a.commit = idle q := by
  rcases a.commit_cases with ⟨-, h⟩ | ⟨-, h⟩ | h
  · exact ⟨_, h⟩
  · exact ⟨_, h⟩
  · exact ⟨_, h⟩

/-- A step leaves a name in progress, or keeps the one that was there. -/
theorem name_step_ne_iff (a : Assembly) (e : Event) :
    (step x a e).facet.name ≠ "" ↔ e.Names x ∨ ¬ e.Renames ∧ a.facet.name ≠ "" := by
  cases e with
  | name n => by_cases hn : n ∈ x <;> simp [step, reset, Facet.blank, Event.Names, Event.Renames, hn]
  | stop =>
      obtain ⟨q, hq⟩ := a.exists_commit_eq
      simp [step, hq, Facet.blank, Event.Names, Event.Renames]
  | requestStop => simp [step, reset, Facet.blank, Event.Names, Event.Renames]
  | variableStop => simp [step, reset, Facet.blank, Event.Names, Event.Renames]
  | null => simp [step, Event.Names, Event.Renames]
  | value v => simp [step, Event.Names, Event.Renames]
  | realm r => simp [step, push, Event.Names, Event.Renames]
  | frequency f => simp [step, push, Event.Names, Event.Renames]

/-- So it is with values. -/
theorem values_step_ne_iff (a : Assembly) (e : Event) :
    (step x a e).facet.values ≠ [] ↔ e.Gives ∨ ¬ e.Clears x ∧ a.facet.values ≠ [] := by
  cases e with
  | name n => by_cases hn : n ∈ x <;> simp [step, reset, Facet.blank, Event.Gives, Event.Clears, hn]
  | stop =>
      obtain ⟨q, hq⟩ := a.exists_commit_eq
      simp [step, hq, Facet.blank, Event.Gives, Event.Clears]
  | requestStop => simp [step, reset, Facet.blank, Event.Gives, Event.Clears]
  | variableStop => simp [step, reset, Facet.blank, Event.Gives, Event.Clears]
  | null => simp [step, Event.Gives, Event.Clears]
  | value v => simp [step, Event.Gives, Event.Clears]
  | realm r => simp [step, push, Event.Gives, Event.Clears]
  | frequency f => simp [step, push, Event.Gives, Event.Clears]

/-- And with an open request, which the end of a scope opens only if there is a name. -/
theorem request_step_ne_iff (a : Assembly) (e : Event) :
    (step x a e).request ≠ [] ↔
      (e.Opens ∨ e = .requestStop ∧ a.facet.name ≠ "") ∨ ¬ e = .stop ∧ a.request ≠ [] := by
  cases e with
  | requestStop => by_cases hn : a.facet.name = "" <;> simp [step, reset, push, Event.Opens, hn]
  | name n => by_cases hn : n ∈ x <;> simp [step, reset, Event.Opens, hn]
  | stop =>
      obtain ⟨q, hq⟩ := a.exists_commit_eq
      simp [step, hq, Event.Opens]
  | variableStop => simp [step, reset, push, Event.Opens]
  | null => simp [step, Event.Opens]
  | value v => simp [step, Event.Opens]
  | realm r => simp [step, push, Event.Opens]
  | frequency f => simp [step, push, Event.Opens]

/-- What each step leaves or keeps is there at the end iff the events leave it. -/
theorem holds_run_iff {P : Assembly → Prop} {leaves : List Event → Event → Prop} {takes : Event → Prop}
    (hidle : ¬ P (idle q))
    (hstep : ∀ es e, P (step x (run x (idle q) es) e) ↔ leaves es e ∨ ¬ takes e ∧ P (run x (idle q) es))
    (es : List Event) : P (run x (idle q) es) ↔ Leaves leaves takes es := by
  induction es using List.reverseRecOn with
  | nil => exact ⟨fun h => absurd h hidle, fun h => absurd h not_leaves_nil⟩
  | append_singleton es e ih => rw [run_concat, leaves_concat, ← ih, hstep]

/-- The facet in progress has a name iff the events leave one. -/
theorem name_run_ne_iff (es : List Event) : (run x (idle q) es).facet.name ≠ "" ↔ EndsNamed x es :=
  holds_run_iff (P := fun a => a.facet.name ≠ "") (fun h => h rfl) (fun _ e => name_step_ne_iff _ e) es

/-- It has values iff the events leave some. -/
theorem values_run_ne_iff (es : List Event) :
    (run x (idle q) es).facet.values ≠ [] ↔ Leaves (fun _ => Event.Gives) (Event.Clears x) es :=
  holds_run_iff (P := fun a => a.facet.values ≠ []) (fun h => h rfl) (fun _ e => values_step_ne_iff _ e) es

/-- A request is in progress iff the events leave one open. -/
theorem request_run_ne_iff (es : List Event) :
    (run x (idle q) es).request ≠ [] ↔ Leaves (OpensBehind x) (· = .stop) es := by
  refine holds_run_iff (P := fun a => a.request ≠ []) (fun h => h rfl) (fun es e => ?_) es
  rw [OpensBehind, ← name_run_ne_iff (q := q) es]
  exact request_step_ne_iff _ e

/-- Nothing is in progress at the end of a stream iff it is finished. -/
theorem settled_run_iff (es : List Event) :
    (run x (idle q) es).settled = true ↔ ¬ Unfinished x es := by
  have hsettled : (run x (idle q) es).settled = true ↔ (run x (idle q) es).request = [] ∧
      (run x (idle q) es).facet.name = "" ∧ (run x (idle q) es).facet.values = [] := by
    simp [settled, and_assoc]
  rw [hsettled]
  constructor
  · rintro ⟨hrequest, hname, hvalues⟩ (h | h | h)
    · exact (request_run_ne_iff es).mpr h hrequest
    · exact (name_run_ne_iff es).mpr h hname
    · exact (values_run_ne_iff es).mpr h hvalues
  · intro h
    refine ⟨Classical.not_not.mp fun hne => h (.request ?_), Classical.not_not.mp fun hne => h (.named ?_),
      Classical.not_not.mp fun hne => h (.valued ?_)⟩
    · exact (request_run_ne_iff es).mp hne
    · exact (name_run_ne_iff es).mp hne
    · exact (values_run_ne_iff es).mp hne

end Assembly

/-- A stream builds a query iff it holds no `null` and is finished. -/
theorem exists_build_iff {x : Exclusions} {es : List Event} :
    (∃ q, build x es = .ok q) ↔ .null ∉ es ∧ ¬ Unfinished x es := by
  rw [← Assembly.settled_run_iff (q := .empty)]
  constructor
  · rintro ⟨q, hq⟩
    obtain ⟨hnull, hrun⟩ := build_eq_ok_iff.mp hq
    refine ⟨hnull, ?_⟩
    rw [hrun, Assembly.settled_idle]
  · rintro ⟨hnull, hsettled⟩
    exact ⟨_, build_eq_ok_iff.mpr ⟨hnull, Assembly.settled_iff.mp hsettled⟩⟩

/-! ## Exclusion -/

section Exclusion

variable {x y : Exclusions} {es : List Event}

theorem Event.Names.anti {e : Event} (hsub : x ⊆ y) (h : e.Names y) : e.Names x := by
  cases e with
  | name n => exact ⟨h.1, fun hn => h.2 (hsub hn)⟩
  | _ => exact h

theorem Event.Clears.mono {e : Event} (hsub : x ⊆ y) (h : e.Clears x) : e.Clears y := by
  cases e with
  | name n => exact hsub h
  | _ => exact h

theorem EndsNamed.anti (hsub : x ⊆ y) (h : EndsNamed y es) : EndsNamed x es :=
  h.mono (fun _ _ _ _ hnames => hnames.anti hsub) fun _ _ htakes => htakes

/-- What is left when more is excluded is left when less is. -/
theorem Unfinished.anti (hsub : x ⊆ y) (h : Unfinished y es) : Unfinished x es := by
  rcases h with h | h | h
  · refine .request (h.mono (fun before e behind _ hopens => ?_) fun _ _ htakes => htakes)
    exact hopens.imp_right fun hscope => ⟨hscope.1, hscope.2.anti hsub⟩
  · exact .named (h.anti hsub)
  · exact .valued (h.mono (fun _ _ _ _ hgives => hgives) fun _ _ hclears => hclears.mono hsub)

/-- The names that a stream gives. -/
def namesOf (es : List Event) : List String :=
  es.filterMap fun
    | .name n => some n
    | _ => none

theorem mem_namesOf {n : String} (h : .name n ∈ es) : n ∈ namesOf es :=
  List.mem_filterMap.mpr ⟨.name n, h, rfl⟩

/-- Something is left that stays when every name is excluded: a request that was opened otherwise than by a scope, or
    values that no name stands behind. -/
def StaysUnfinished (es : List Event) : Prop :=
  Leaves (fun _ => Event.Opens) (· = .stop) es ∨ Leaves (fun _ => Event.Gives) Event.Renames es

/-- That is left whatever is excluded. -/
theorem StaysUnfinished.unfinished (h : StaysUnfinished es) (x : Exclusions) : Unfinished x es := by
  rcases h with h | h
  · exact .request (h.mono (fun _ _ _ _ hopens => .inl hopens) fun _ _ htakes => htakes)
  · exact .valued (h.mono (fun _ _ _ _ hgives => hgives) fun _ _ hclears => hclears.renames)

/-- No name is left where every name is excluded. -/
theorem not_endsNamed_namesOf {before : List Event} (h : before ⊆ es) : ¬ EndsNamed (namesOf es) before := by
  rintro ⟨front, e, back, rfl, hnames, -⟩
  cases e with
  | name n => exact hnames.2 (mem_namesOf (h (by simp)))
  | _ => exact hnames

/-- Nothing else is left when every name of the stream is excluded. -/
theorem staysUnfinished_of_namesOf (h : Unfinished (namesOf es) es) : StaysUnfinished es := by
  rcases h with h | h | h
  · refine .inl (h.mono (fun before e behind hes hopens => ?_) fun _ _ htakes => htakes)
    rcases hopens with hopens | ⟨-, hscope⟩
    · exact hopens
    · exact absurd hscope (not_endsNamed_namesOf (hes ▸ List.subset_append_left before _))
  · exact absurd h (not_endsNamed_namesOf (List.Subset.refl es))
  · refine .inr (h.mono (fun _ _ _ _ hgives => hgives) fun e he hrenames => ?_)
    cases e with
    | name n => exact mem_namesOf he
    | _ => exact hrenames

/-- The stream ends too early, but nothing is in progress at its end when all its names are excluded. -/
def Forgivable (es : List Event) : Prop := .null ∉ es ∧ Unfinished [] es ∧ ¬ StaysUnfinished es

/-- Behind the end of a line nothing is left. -/
theorem not_unfinished_concat_stop : ¬ Unfinished x (es ++ [.stop]) := by
  rintro (h | h | h)
  · rcases leaves_concat.mp h with (hopens | ⟨hstop, -⟩) | ⟨hkept, -⟩
    · exact hopens
    · exact nomatch hstop
    · exact hkept rfl
  · rcases leaves_concat.mp h with hnames | ⟨hkept, -⟩
    · exact hnames
    · exact hkept trivial
  · rcases leaves_concat.mp h with hgives | ⟨hkept, -⟩
    · exact hgives
    · exact hkept trivial

/-- A stream that is refused without a `null` in it is refused for what it leaves. -/
theorem build_of_unfinished (hnull : .null ∉ es) (h : Unfinished x es) : build x es = .error .unterminated := by
  rw [build_of_not_null hnull, if_neg fun hsettled => (Assembly.settled_run_iff es).mp hsettled h]

/-- **Exclusion lets streams pass that end too early, and does no more.** Any two exclusions agree on whether a
    stream is refused iff it is not forgivable; one that is forgivable is refused as unterminated when nothing is
    excluded, and not when all its names are. A stream that builds a query still does when more is excluded. One
    with a `null` is refused alike whatever is excluded; one without, that is empty or ends with the end of a line,
    is never refused. -/
theorem exclusions_agree_iff (es : List Event) :
    ((∀ x y, (∃ q, build x es = .ok q) ↔ ∃ q, build y es = .ok q) ↔ ¬ Forgivable es) ∧
    (Forgivable es → build [] es = .error .unterminated ∧ ∃ q, build (namesOf es) es = .ok q) ∧
    (∀ x y, x ⊆ y → (∃ q, build x es = .ok q) → ∃ q, build y es = .ok q) ∧
    (.null ∈ es → ∀ x y, build x es = build y es) ∧
    (.null ∉ es → es = [] ∨ es.getLast? = some .stop → ∀ x, ∃ q, build x es = .ok q) := by
  have hforgiven : Forgivable es → build [] es = .error .unterminated ∧ ∃ q, build (namesOf es) es = .ok q := by
    rintro ⟨hnull, hunfinished, hstays⟩
    exact ⟨build_of_unfinished hnull hunfinished,
      exists_build_iff.mpr ⟨hnull, fun h => hstays (staysUnfinished_of_namesOf h)⟩⟩
  have hmono : ∀ x y, x ⊆ y → (∃ q, build x es = .ok q) → ∃ q, build y es = .ok q := by
    intro x y hsub hx
    obtain ⟨hnull, hfinished⟩ := exists_build_iff.mp hx
    exact exists_build_iff.mpr ⟨hnull, fun h => hfinished (h.anti hsub)⟩
  refine ⟨⟨fun hagree hforgivable => ?_, fun hnot => ?_⟩, hforgiven, hmono, fun hnull x y => ?_,
    fun hnull hends x => exists_build_iff.mpr ⟨hnull, ?_⟩⟩
  · obtain ⟨hrefused, hbuilt⟩ := hforgiven hforgivable
    obtain ⟨q, hq⟩ := (hagree [] (namesOf es)).mpr hbuilt
    exact nomatch hrefused.symm.trans hq
  · -- a stream that passes under one exclusion only would be forgivable
    have hpasses : ∀ x y, (∃ q, build x es = .ok q) → ∃ q, build y es = .ok q := by
      intro x y hx
      obtain ⟨hnull, hfinished⟩ := exists_build_iff.mp hx
      refine exists_build_iff.mpr ⟨hnull, fun h => hnot ⟨hnull, h.anti (List.nil_subset y), fun hstays => ?_⟩⟩
      exact hfinished (hstays.unfinished x)
    exact fun x y => ⟨hpasses x y, hpasses y x⟩
  · obtain ⟨front, back, rfl, hfront⟩ := List.eq_append_cons_of_mem hnull
    rw [build_of_null hfront, build_of_null hfront]
  · rcases hends with rfl | hlast
    · rintro (h | h | h)
      · exact not_leaves_nil h
      · exact not_leaves_nil h
      · exact not_leaves_nil h
    · obtain ⟨front, rfl⟩ := List.getLast?_eq_some_iff.mp hlast
      exact not_unfinished_concat_stop

/-- A scope behind which nothing is opened is forgivable, and values behind a name are not. -/
theorem exclusions_agree_iff_scope :
    Forgivable [.name "n", .value "v", .requestStop] ∧
    build [] [.name "n", .value "v", .requestStop] = .error .unterminated ∧
    (∃ q, build ["n"] [.name "n", .value "v", .requestStop] = .ok q) ∧
    ¬ Forgivable [.name "n", .value "v"] ∧
    ∀ x y, (∃ q, build x [.name "n", .value "v"] = .ok q) ↔ ∃ q, build y [.name "n", .value "v"] = .ok q := by
  have hnamed : EndsNamed [] [.name "n", .value "v"] :=
    ⟨[], .name "n", [.value "v"], rfl, ⟨by decide, List.not_mem_nil⟩, by simp [Event.Renames]⟩
  have hunfinished : Unfinished [] [.name "n", .value "v", .requestStop] :=
    .request ⟨[.name "n", .value "v"], .requestStop, [], rfl, .inr ⟨rfl, hnamed⟩, fun _ h => nomatch h⟩
  have hfinished : ¬ Unfinished ["n"] [.name "n", .value "v", .requestStop] :=
    (Assembly.settled_run_iff (q := .empty) _).mp rfl
  have hforgivable : Forgivable [.name "n", .value "v", .requestStop] :=
    ⟨by decide, hunfinished, fun h => hfinished (h.unfinished ["n"])⟩
  have hnot : ¬ Forgivable [.name "n", .value "v"] := fun h =>
    h.2.2 (.inr ⟨[.name "n"], .value "v", [], rfl, trivial, fun _ h => nomatch h⟩)
  obtain ⟨hrefused, hbuilt⟩ := (exclusions_agree_iff _).2.1 hforgivable
  exact ⟨hforgivable, hrefused, hbuilt, hnot, (exclusions_agree_iff _).1.mpr hnot⟩

/-- A stream that stops behind a name is refused, unless the name is excluded; with one value more it is refused
    all the same. -/
theorem build_passes_unterminated :
    build [] [.name "model", .value "IPSL", .stop, .name "project"] = .error .unterminated ∧
    build ["project"] [.name "model", .value "IPSL", .stop, .name "project"] =
      .ok ⟨[⟨"model", ["IPSL"]⟩], []⟩ ∧
    build ["project"] [.name "model", .value "IPSL", .stop, .name "project", .value "CMIP6"] =
      .error .unterminated ∧
    ¬ ∀ es x y, (∃ q, build x es = .ok q) ↔ ∃ q, build y es = .ok q := by
  have hrefused : build [] [.name "model", .value "IPSL", .stop, .name "project"] = .error .unterminated := rfl
  refine ⟨hrefused, rfl, rfl, fun hagree => ?_⟩
  obtain ⟨q, hq⟩ := (hagree [.name "model", .value "IPSL", .stop, .name "project"] [] ["project"]).mpr ⟨_, rfl⟩
  exact nomatch hrefused.symm.trans hq

end Exclusion

end FacetQuery

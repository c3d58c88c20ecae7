import Mathlib.Data.List.Induction
import FacetQuery.Proofs.Conversion.Memory

/-!
# `FacetQuery.Proofs.Conversion.Lifecycle` — what the calls so far say of the next

What a conversion remembers can be told from the list of all calls on it, without following them one by one: the
last text is the last that any call has parsed, and the last exclusions are those of the last call that had any.
Whether there was a translation since that text, and post-processing since that translation, is likewise a matter
of which calls stand behind which (`Since`), also where some of them were refused: a refused call is only ever
followed by what undoes it. So a memory that comes from calls agrees with them (`Memory.Recalls`), by induction on
the calls, the last one first.

Main statement: `Conversion.lifecycle`.
-/

namespace FacetQuery

/-! ## What the calls themselves say -/

namespace Call

/-- The text that a call parses. -/
def text? : Call → Option String
  | parse text | process text _ _ => some text
  | translate _ | postprocess | render _ => none

/-- What a call excludes from a translation. -/
def excluded? : Call → Option Exclusions
  | translate excluded | process _ excluded _ => some excluded
  | parse _ | postprocess | render _ => none

/-- Whether a call post-processes. -/
def postprocesses : Call → Bool
  | postprocess | process .. => true
  | parse _ | translate _ | render _ => false

end Call

/-- The last thing that a call of the list has. -/
def lastOf {α : Type} (f : Call → Option α) (calls : List Call) : Option α := (calls.filterMap f).getLast?

/-- Some call of the list has done a thing, and none after it has undone it. -/
def Since (does undoes : Call → Bool) (calls : List Call) : Prop :=
  ∃ before k since, calls = before ++ k :: since ∧ does k = true ∧ ∀ l ∈ since, undoes l = false

/-- There was a translation since the last text. -/
def TranslatedSince : List Call → Prop := Since (·.excluded?.isSome) (·.text?.isSome)

/-- There was post-processing since the last translation. -/
def PostprocessedSince : List Call → Prop := Since Call.postprocesses (·.excluded?.isSome)

theorem lastOf_concat {α : Type} (f : Call → Option α) (calls : List Call) (k : Call) :
    lastOf f (calls ++ [k]) = (f k).or (lastOf f calls) := by
  unfold lastOf
  rw [List.filterMap_append]
  cases h : f k with
  | none => simp [h]
  | some a => simp [h]

theorem since_concat {does undoes : Call → Bool} {calls : List Call} {k : Call} :
    Since does undoes (calls ++ [k]) ↔
      does k = true ∨ undoes k = false ∧ Since does undoes calls := by
  constructor
  · rintro ⟨before, l, since, heq, hdoes, hsince⟩
    rcases List.eq_nil_or_concat since with rfl | ⟨since, m, rfl⟩
    · obtain ⟨-, hl⟩ := List.append_inj' heq rfl
      cases hl
      exact .inl hdoes
    · rw [List.concat_eq_append] at heq hsince
      rw [← List.cons_append, ← List.append_assoc] at heq
      obtain ⟨hcalls, hm⟩ := List.append_inj' heq rfl
      cases hm
      exact .inr ⟨hsince k (by simp), before, l, since, hcalls, hdoes,
        fun m hm => hsince m (List.mem_append_left _ hm)⟩
  · rintro (hdoes | ⟨hundoes, before, l, since, rfl, hdoes, hsince⟩)
    · exact ⟨calls, k, [], rfl, hdoes, fun _ h => nomatch h⟩
    · refine ⟨before, l, since ++ [k], by simp, hdoes, fun m hm => ?_⟩
      rcases List.mem_append.mp hm with hm | hm
      · exact hsince m hm
      · rw [List.mem_singleton.mp hm]
        exact hundoes

/-- The text that a memory holds. -/
def Memory.text? : Memory → Option String
  | .blank => none
  | .refused text | .accepted text _ => some text

/-- The translation that a memory holds. -/
def Memory.translation? : Memory → Option Translation
  | .accepted _ translation => translation
  | _ => none

/-- The memory is that of these calls. -/
structure Memory.Recalls (calls : List Call) (m : Memory) : Prop where
  text : m.text? = lastOf Call.text? calls
  accepted : m.success = true ↔ ∃ text es, m.text? = some text ∧ Selection.events text.toList = .ok es
  translated : m.translation?.isSome = true ↔ m.success = true ∧ TranslatedSince calls
  translation : ∀ tr, m.translation? = some tr → lastOf Call.excluded? calls = some tr.excluded ∧
    (tr.postprocessed = true ↔ PostprocessedSince calls)

namespace Memory

theorem recalls_blank : Recalls [] .blank where
  text := rfl
  accepted := ⟨(nomatch ·), fun ⟨_, _, h, _⟩ => nomatch h⟩
  translated := ⟨(nomatch ·), fun h => nomatch h.1⟩
  translation := fun _ h => nomatch h

variable {calls : List Call} {m : Memory} {k : Call}

/-- A call that parses nothing and meets nothing that it could change is forgotten. -/
theorem Recalls.keep (h : m.Recalls calls) (htext : k.text? = none)
    (hexcluded : m.success = true → k.excluded? = none)
    (hdone : m.translation?.isSome = true → k.postprocesses = false) : m.Recalls (calls ++ [k]) where
  text := by rw [lastOf_concat, htext, Option.none_or, h.text]
  accepted := h.accepted
  translated := by
    rw [h.translated]
    refine and_congr_right fun hsuccess => ?_
    rw [TranslatedSince, since_concat, hexcluded hsuccess, htext]
    simp
  translation := by
    intro tr htr
    have hsome : m.translation?.isSome = true := by rw [htr]; rfl
    have hnone := hexcluded (h.translated.mp hsome).1
    obtain ⟨hlast, hpost⟩ := h.translation tr htr
    rw [lastOf_concat, hnone, Option.none_or, PostprocessedSince, since_concat, hnone, hdone hsome]
    exact ⟨hlast, hpost.trans (by simp [PostprocessedSince])⟩

/-- A text that is parsed takes the place of all that was remembered. -/
theorem recalls_ofText {text : String} {translation : Option Translation} (htext : k.text? = some text)
    (hexcluded : k.excluded? = translation.map (·.excluded))
    (hdone : ∀ tr, translation = some tr → tr.postprocessed = true ∧ k.postprocesses = true) :
    (ofText text translation).Recalls (calls ++ [k]) := by
  have hlast : lastOf Call.text? (calls ++ [k]) = some text := by
    rw [lastOf_concat, htext, Option.some_or]
  have hsince : TranslatedSince (calls ++ [k]) ↔ translation.isSome = true := by
    rw [TranslatedSince, since_concat, htext, hexcluded]
    simp
  unfold ofText
  cases hevents : Selection.events text.toList with
  | error f =>
      refine ⟨hlast.symm, ⟨(nomatch ·), ?_⟩, ⟨(nomatch ·), fun h => nomatch h.1⟩, fun _ h => nomatch h⟩
      rintro ⟨_, es, htext', hes⟩
      cases htext'
      exact nomatch hevents.symm.trans hes
  | ok es =>
      refine ⟨hlast.symm, ⟨fun _ => ⟨text, es, rfl, hevents⟩, fun _ => rfl⟩,
        hsince.symm.trans (by simp [success]), fun tr htr => ?_⟩
      have htr' : translation = some tr := htr
      obtain ⟨hpost, hdoes⟩ := hdone tr htr'
      rw [lastOf_concat, hexcluded, htr', PostprocessedSince, since_concat]
      exact ⟨rfl, ⟨fun _ => .inl hdoes, fun _ => hpost⟩⟩

/-- A translation takes the place of the one before, and is not post-processed yet. -/
theorem Recalls.translate {text : String} {translation : Option Translation}
    (h : (Memory.accepted text translation).Recalls calls) (excluded : Exclusions) :
    (Memory.accepted text (some ⟨excluded, false⟩)).Recalls (calls ++ [.translate excluded]) := by
  have htext : some text = lastOf Call.text? (calls ++ [.translate excluded]) := by
    rw [lastOf_concat]
    exact h.text
  have hsince : TranslatedSince (calls ++ [.translate excluded]) := since_concat.mpr (.inl rfl)
  refine ⟨htext, h.accepted, ⟨fun _ => ⟨rfl, hsince⟩, fun _ => rfl⟩, ?_⟩
  rintro tr htr
  cases htr
  refine ⟨lastOf_concat .., ⟨(nomatch ·), fun hpost => ?_⟩⟩
  rcases since_concat.mp hpost with hdoes | ⟨hundoes, -⟩
  · exact nomatch hdoes
  · exact nomatch hundoes

/-- Post-processing leaves the exclusions as they are. -/
theorem Recalls.postprocess {text : String} {tr : Translation}
    (h : (Memory.accepted text (some tr)).Recalls calls) :
    (Memory.accepted text (some { tr with postprocessed := true })).Recalls (calls ++ [.postprocess]) := by
  have htext : some text = lastOf Call.text? (calls ++ [.postprocess]) := by
    rw [lastOf_concat]
    exact h.text
  have hsince : TranslatedSince (calls ++ [.postprocess]) :=
    since_concat.mpr (.inr ⟨rfl, (h.translated.mp rfl).2⟩)
  refine ⟨htext, h.accepted, ⟨fun _ => ⟨rfl, hsince⟩, fun _ => rfl⟩, ?_⟩
  rintro tr' htr
  cases htr
  rw [lastOf_concat]
  exact ⟨(h.translation tr rfl).1, ⟨fun _ => since_concat.mpr (.inl rfl), fun _ => rfl⟩⟩

/-- A call is remembered. -/
theorem Recalls.next (h : m.Recalls calls) (k : Call) : (m.next k).Recalls (calls ++ [k]) := by
  cases k with
  | parse text =>
      rw [next_parse]
      exact recalls_ofText rfl rfl fun _ h => nomatch h
  | translate excluded =>
      cases m with
      | blank => exact h.keep rfl (nomatch ·) (nomatch ·)
      | refused text => exact h.keep rfl (nomatch ·) (nomatch ·)
      | accepted text translation => exact h.translate excluded
  | postprocess =>
      cases m with
      | blank => exact h.keep rfl (fun _ => rfl) (nomatch ·)
      | refused text => exact h.keep rfl (fun _ => rfl) (nomatch ·)
      | accepted text translation =>
          cases translation with
          | none => exact h.keep rfl (fun _ => rfl) (nomatch ·)
          | some tr => exact h.postprocess
  | render format =>
      rw [next_render]
      exact h.keep rfl (fun _ => rfl) (fun _ => rfl)
  | process text excluded format =>
      rw [next_process]
      refine recalls_ofText rfl rfl ?_
      rintro tr htr
      cases htr
      exact ⟨rfl, rfl⟩

theorem recalls_after (calls : List Call) : (Memory.blank.after calls).Recalls calls := by
  induction calls using List.reverseRecOn with
  | nil => exact recalls_blank
  | append_singleton calls k ih =>
      rw [after, List.foldl_append]
      exact ih.next k

end Memory

/-! ## The lifecycle -/

/-- The last text of some calls is accepted, and this is its stream. -/
def Accepts (calls : List Call) (es : List Event) : Prop :=
  ∃ text, lastOf Call.text? calls = some text ∧ Selection.events text.toList = .ok es

/-- What a conversion does and shows after some calls, told by the calls. -/
structure Conversion.InOrder (path : Path) (calls : List Call) (c : Conversion) : Prop where
  /-- A translation succeeds iff the last text was accepted. -/
  translates : ∀ excluded, (∃ q, (c.call (.translate excluded)).1 = .translated q) ↔ ∃ es, Accepts calls es
  /-- Post-processing is let through iff that text was translated since. -/
  postprocesses : (∃ applied, (c.call .postprocess).1 = .postprocessed applied) ↔
    (∃ es, Accepts calls es) ∧ TranslatedSince calls
  /-- So is a request for a rendering. -/
  renders : ∀ format, (c.call (.render format)).1 ≠ .refused (.invariant (.notTranslated path)) ↔
    (∃ es, Accepts calls es) ∧ TranslatedSince calls
  /-- Between two translations facets are renamed at most once. -/
  once : PostprocessedSince calls → (c.call .postprocess).1 ≠ .postprocessed true
  /-- A call out of order changes nothing. -/
  keeps : ∀ k breach, (c.call k).1 = .refused (.invariant breach) → (c.call k).2 = c
  success : c.success = true ↔ ∃ es, Accepts calls es
  events : ∀ es, Accepts calls es → c.events = es
  events_nil : (¬ ∃ es, Accepts calls es) → c.events = []
  query : ∀ es, Accepts calls es → TranslatedSince calls →
    ∃ excluded q, lastOf Call.excluded? calls = some excluded ∧ build excluded es = .ok q ∧
      (PostprocessedSince calls ∧ q.targetsCmip6 = true → c.query = q.rename) ∧
      (¬ (PostprocessedSince calls ∧ q.targetsCmip6 = true) → c.query = q)
  query_empty : ¬ ((∃ es, Accepts calls es) ∧ TranslatedSince calls) → c.query = .empty
  /-- What is shown is the query of the last text. -/
  shows : ∀ format rendering, (c.call (.render format)).1 = .rendered rendering →
    (∃ es, Accepts calls es) ∧ TranslatedSince calls ∧ c.query.render format = some rendering

namespace Memory.Recalls

variable {calls : List Call} {m : Memory}

theorem success_iff (h : m.Recalls calls) : m.success = true ↔ ∃ es, Accepts calls es := by
  rw [h.accepted, h.text]
  exact exists_comm

theorem translation_isSome_iff (h : m.Recalls calls) :
    m.translation?.isSome = true ↔ (∃ es, Accepts calls es) ∧ TranslatedSince calls := by
  rw [h.translated, h.success_iff]

/-- The memory of an accepted text. -/
theorem eq_accepted (h : m.Recalls calls) {es : List Event} (hes : Accepts calls es) :
    ∃ text, m = .accepted text m.translation? ∧ Selection.events text.toList = .ok es := by
  have hsuccess : m.success = true := h.success_iff.mpr ⟨es, hes⟩
  cases m with
  | blank => exact nomatch hsuccess
  | refused text => exact nomatch hsuccess
  | accepted text translation =>
      obtain ⟨text', hlast, hevents⟩ := hes
      have htext : some text = some text' := h.text.trans hlast
      cases htext
      exact ⟨text, rfl, hevents⟩

/-- The memory of some calls describes a conversion that is in order with them. -/
theorem inOrder (path : Path) (h : m.Recalls calls) : (m.conversion path).InOrder path calls where
  translates excluded := by
    rw [call_conversion, ← h.success_iff]
    cases m <;> simp [answer, success]
  postprocesses := by
    rw [call_conversion, ← h.translation_isSome_iff]
    rcases m with _ | _ | ⟨text, _ | tr⟩ <;> simp [answer, translation?]
  renders format := by
    rw [call_conversion, ← h.translation_isSome_iff]
    rcases m with _ | _ | ⟨text, _ | tr⟩
    · simp [answer, shown, translation?]
    · simp [answer, shown, translation?]
    · simp [answer, shown, translation?]
    · cases hrender : (tr.query text).render format <;> simp [answer, shown, translation?, hrender]
  once hpost := by
    rw [call_conversion]
    intro hanswer
    rcases m with _ | _ | ⟨text, _ | tr⟩
    · cases hanswer
    · cases hanswer
    · cases hanswer
    · have hdone : tr.postprocessed = true := (h.translation tr rfl).2.mpr hpost
      simp [answer, hdone] at hanswer
  keeps k breach hanswer := by
    rw [call_conversion] at hanswer ⊢
    exact congrArg (conversion path) (next_of_breach path hanswer)
  success := h.success_iff
  events es hes := by
    obtain ⟨text, hm, hevents⟩ := h.eq_accepted hes
    rw [hm]
    exact streamOf_of_events hevents
  events_nil hno := by
    have hsuccess : m.success ≠ true := fun hs => hno (h.success_iff.mp hs)
    cases m with
    | blank => rfl
    | refused text => rfl
    | accepted text translation => exact absurd rfl hsuccess
  query es hes hsince := by
    obtain ⟨text, hm, hevents⟩ := h.eq_accepted hes
    obtain ⟨tr, htr⟩ := Option.isSome_iff_exists.mp (h.translation_isSome_iff.mpr ⟨⟨es, hes⟩, hsince⟩)
    obtain ⟨hexcluded, hpost⟩ := h.translation tr htr
    have hbuild := build_streamOf tr.excluded text
    rw [streamOf_of_events hevents] at hbuild
    have hquery : (m.conversion path).query = tr.query text := by
      rw [hm, htr]
      rfl
    refine ⟨tr.excluded, builtFrom tr.excluded text, hexcluded, hbuild, ?_, ?_⟩
    · rintro ⟨hdone, htargets⟩
      rw [hquery]
      exact if_pos ⟨hpost.mpr hdone, htargets⟩
    · intro hnot
      rw [hquery]
      exact if_neg fun hboth => hnot ⟨hpost.mp hboth.1, hboth.2⟩
  query_empty hno := by
    rw [← h.translation_isSome_iff] at hno
    rcases m with _ | _ | ⟨text, _ | tr⟩
    · rfl
    · rfl
    · rfl
    · exact absurd rfl hno
  shows format rendering hanswer := by
    rw [call_conversion] at hanswer
    rcases m with _ | _ | ⟨text, _ | tr⟩
    · cases hanswer
    · cases hanswer
    · cases hanswer
    · obtain ⟨haccepted, hsince⟩ := h.translation_isSome_iff.mp rfl
      refine ⟨haccepted, hsince, ?_⟩
      show (tr.query text).render format = some rendering
      cases hrender : (tr.query text).render format with
      | none => simp [answer, shown, hrender] at hanswer
      | some s =>
          simp only [answer, shown, hrender, Answer.rendered.injEq] at hanswer
          rw [hanswer]

end Memory.Recalls

/-- **A conversion depends on the last text, its acceptance, the last exclusions and post-processing.** From the
    start of a conversion, any calls are answered as by the memory alone and leave the same public parts after
    each call; and after them the conversion is in order with the calls. -/
theorem Conversion.lifecycle (path : Path) (calls : List Call) :
    (Conversion.start path).trace calls = Memory.blank.trace path calls ∧
      ((Conversion.start path).after calls).InOrder path calls := by
  refine ⟨trace_conversion path .blank calls, ?_⟩
  have hafter := after_conversion path .blank calls
  rw [show (Conversion.start path).after calls = _ from hafter]
  exact (Memory.recalls_after calls).inOrder path

end FacetQuery

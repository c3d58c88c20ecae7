import FacetQuery.Conversion
import FacetQuery.Proofs.Query.Meaning

/-!
# `FacetQuery.Proofs.Conversion.Memory` — a conversion is what it remembers

A conversion may be called in any order. What it answers and what it holds depend on little: the last text
that was parsed and whether it was accepted, the exclusions of the last translation of that text, and whether
it was post-processed since. `Memory` is just that, with its own account of every call; it holds no stage, no
stream and no query. A conversion is at any time the one that its memory describes (`call_conversion`), so its
answers and its public parts are those of the memory, call by call (`trace_conversion`).

That a translation never fails in order rests on `build_eventsOf`: the stream of an accepted text always makes a
query.

## Contents
- `Call` and `Answer`; `Conversion.call` and `Conversion.trace`.
- `Memory`, with `answer`, `next` and the conversion that it describes.
- `call_conversion`, one call; `trace_conversion`, any calls.
-/

namespace FacetQuery

/-! ## Calls -/

/-- A call on a conversion. -/
inductive Call where
  | parse (text : String)
  | translate (excluded : Exclusions)
  | postprocess
  | render (format : Format)
  | process (text : String) (excluded : Exclusions) (format : Format)
  deriving DecidableEq

/-- What a call returns. -/
inductive Answer where
  | parsed
  | translated (query : Query)
  | postprocessed (applied : Bool)
  | rendered (rendering : String)
  | refused (fault : Fault)
  deriving DecidableEq

/-- The answer for a result, where `answer` tells what is answered if there is one. -/
def Answer.of {α : Type} (answer : α → Answer) : Except Fault α → Answer
  | .ok a => answer a
  | .error f => .refused f

namespace Conversion

/-- The answer to a call, and the conversion after it. -/
def call (c : Conversion) : Call → Answer × Conversion
  | .parse text => (c.parse text).value.map (.of fun _ => .parsed) id
  | .translate excluded => (c.translate excluded).value.map (.of .translated) id
  | .postprocess => c.postprocess.value.map (.of .postprocessed) id
  | .render format => (.of .rendered (c.render format), c)
  | .process text excluded format => (c.process text excluded format).value.map (.of .rendered) id

/-- The conversion after some calls. -/
def after (c : Conversion) (calls : List Call) : Conversion := calls.foldl (fun c k => (c.call k).2) c

/-- What anybody can see of some calls: each answer, and the public parts after the call. -/
def trace (c : Conversion) : List Call → List (Answer × Bool × List Event × Query)
  | [] => []
  | k :: ks =>
      ((c.call k).1, (c.call k).2.success, (c.call k).2.events, (c.call k).2.query) ::
        (c.call k).2.trace ks

end Conversion

/-! ## What is remembered -/

/-- The stream of a text; empty if the text is refused. -/
def streamOf (text : String) : List Event :=
  match Selection.events text.toList with
  | .ok es => es
  | .error _ => []

/-- The query that the stream of a text builds. -/
def builtFrom (excluded : Exclusions) (text : String) : Query :=
  match build excluded (streamOf text) with
  | .ok q => q
  | .error _ => .empty

/-- A translation of the last text, with what was excluded, and whether it was post-processed since. -/
structure Translation where
  excluded : Exclusions
  postprocessed : Bool
  deriving DecidableEq

/-- The query of a translation: under CMIP6 names iff it was post-processed and targets CMIP6. -/
def Translation.query (tr : Translation) (text : String) : Query :=
  if tr.postprocessed = true ∧ (builtFrom tr.excluded text).targetsCmip6 = true then
    (builtFrom tr.excluded text).rename
  else builtFrom tr.excluded text

/-- A translation that was not post-processed is the query as it was built. -/
theorem Translation.query_translated (excluded : Exclusions) (text : String) :
    Translation.query ⟨excluded, false⟩ text = builtFrom excluded text :=
  if_neg fun h => nomatch h.1

/-- What is remembered of all calls: the last text that was parsed, whether it was accepted, and then its last
    translation, if there is one. -/
inductive Memory where
  | blank
  | refused (text : String)
  | accepted (text : String) (translation : Option Translation)
  deriving DecidableEq

namespace Memory

/-- The memory of a text that was just parsed. -/
def ofText (text : String) (translation : Option Translation) : Memory :=
  match Selection.events text.toList with
  | .ok _ => .accepted text translation
  | .error _ => .refused text

/-- The memory after a call. -/
def next : Memory → Call → Memory
  | _, .parse text => ofText text none
  | .accepted text _, .translate excluded => .accepted text (some ⟨excluded, false⟩)
  | .accepted text (some tr), .postprocess => .accepted text (some { tr with postprocessed := true })
  | _, .process text excluded _ => ofText text (some ⟨excluded, true⟩)
  | m, _ => m

theorem next_parse (m : Memory) (text : String) : m.next (.parse text) = ofText text none := by
  cases m with
  | blank => rfl
  | refused _ => rfl
  | accepted _ translation => cases translation <;> rfl

theorem next_render (m : Memory) (format : Format) : m.next (.render format) = m := by
  cases m with
  | blank => rfl
  | refused _ => rfl
  | accepted _ translation => cases translation <;> rfl

theorem next_process (m : Memory) (text : String) (excluded : Exclusions) (format : Format) :
    m.next (.process text excluded format) = ofText text (some ⟨excluded, true⟩) := by
  cases m with
  | blank => rfl
  | refused _ => rfl
  | accepted _ translation => cases translation <;> rfl

/-- The answer to a request for a rendering. -/
def shown (path : Path) (format : Format) : Memory → Answer
  | .accepted text (some tr) =>
      match (tr.query text).render format with
      | some rendering => .rendered rendering
      | none => .refused .emptyResult
  | _ => .refused (.invariant (.notTranslated path))

/-- The answer to a call. -/
def answer (path : Path) (m : Memory) : Call → Answer
  | .parse text =>
      match Selection.events text.toList with
      | .ok _ => .parsed
      | .error f => .refused (.grammar f)
  | .translate excluded =>
      match m with
      | .accepted text _ => .translated (builtFrom excluded text)
      | _ => .refused (.invariant (.notParsed path))
  | .postprocess =>
      match m with
      | .accepted text (some tr) =>
          .postprocessed (!tr.postprocessed && (builtFrom tr.excluded text).targetsCmip6)
      | _ => .refused (.invariant (.notTranslated path))
  | .render format => m.shown path format
  | .process text excluded format =>
      match Selection.events text.toList with
      | .ok _ => (Memory.accepted text (some ⟨excluded, true⟩)).shown path format
      | .error f => .refused (.grammar f)

/-- A breach is only met out of order, where the memory stays as it is. -/
theorem next_of_breach (path : Path) {m : Memory} {k : Call} {breach : Breach}
    (h : m.answer path k = .refused (.invariant breach)) : m.next k = m := by
  cases k with
  | parse text =>
      unfold answer at h
      cases hevents : Selection.events text.toList <;> simp [hevents] at h
  | translate excluded =>
      cases m with
      | blank => rfl
      | refused text => rfl
      | accepted text translation => exact nomatch h
  | postprocess =>
      cases m with
      | blank => rfl
      | refused text => rfl
      | accepted text translation =>
          cases translation with
          | none => rfl
          | some tr => exact nomatch h
  | render format => exact m.next_render format
  | process text excluded format =>
      unfold answer at h
      cases hevents : Selection.events text.toList with
      | error f => simp [hevents] at h
      | ok es =>
          simp only [hevents, shown] at h
          cases hrender : (Translation.query ⟨excluded, true⟩ text).render format <;> simp [hrender] at h

/-- Whether the last parse was accepted. -/
def success : Memory → Bool
  | .accepted .. => true
  | _ => false

/-- The stream of the last text, if that was accepted. -/
def events : Memory → List Event
  | .accepted text _ => streamOf text
  | _ => []

/-- The query of the last translation of the last text. -/
def query : Memory → Query
  | .accepted text (some tr) => tr.query text
  | _ => .empty

/-- The memory after some calls. -/
def after (m : Memory) (calls : List Call) : Memory := calls.foldl next m

/-- What anybody can see of some calls, by memory alone. -/
def trace (path : Path) (m : Memory) : List Call → List (Answer × Bool × List Event × Query)
  | [] => []
  | k :: ks =>
      (m.answer path k, (m.next k).success, (m.next k).events, (m.next k).query) ::
        (m.next k).trace path ks

/-- The stage of a conversion with this memory. -/
def stage : Memory → Stage
  | .blank => .fresh
  | .refused _ | .accepted _ none => .parsed
  | .accepted _ (some tr) => if tr.postprocessed then .postprocessed else .translated

/-- The conversion that a memory describes. -/
def conversion (path : Path) (m : Memory) : Conversion :=
  ⟨path, m.success, m.events, m.query, m.stage⟩

end Memory

/-! ## One call -/

section Call

variable (path : Path) (m : Memory)

/-- What is made of the stream of a text is always a query. -/
theorem build_streamOf (excluded : Exclusions) (text : String) :
    build excluded (streamOf text) = .ok (builtFrom excluded text) := by
  have hquery : ∃ q, build excluded (streamOf text) = .ok q := by
    unfold streamOf
    cases h : Selection.events text.toList with
    | ok es =>
        obtain ⟨ss, -, hnamed, rfl⟩ := exists_statements_of_events h
        exact ⟨_, build_eventsOf excluded hnamed⟩
    | error f => exact ⟨.empty, rfl⟩
  obtain ⟨q, hq⟩ := hquery
  rw [builtFrom, hq]

theorem streamOf_of_events {text : String} {es : List Event}
    (h : Selection.events text.toList = .ok es) : streamOf text = es := by
  rw [streamOf, h]

/-- Parsing starts afresh. -/
theorem parse_conversion (text : String) :
    ((m.conversion path).parse text).value =
      match Selection.events text.toList with
      | .ok _ => (.ok (), (Memory.accepted text none).conversion path)
      | .error f => (.error (.grammar f), (Memory.refused text).conversion path) := by
  unfold Conversion.parse
  cases h : Selection.statements text.toList with
  | ok ss =>
      have hevents : Selection.events text.toList = .ok (Selection.eventsOf ss) := by
        rw [Selection.events, h]
        rfl
      simp only [hevents, Memory.conversion, Memory.events, streamOf_of_events hevents]
      rfl
  | error f =>
      have hevents : Selection.events text.toList = .error f := by
        rw [Selection.events, h]
        rfl
      simp only [hevents]
      rfl

/-- An accepted text is translated, and no translation fails. -/
theorem translate_accepted (excluded : Exclusions) (text : String) (translation : Option Translation) :
    (((Memory.accepted text translation).conversion path).translate excluded).value =
      (.ok (builtFrom excluded text), (Memory.accepted text (some ⟨excluded, false⟩)).conversion path) := by
  have hstage : (Memory.accepted text translation).stage.hasText = true := by
    cases translation with
    | none => rfl
    | some tr => cases h : tr.postprocessed <;> simp [Memory.stage, h, Stage.hasText]
  unfold Conversion.translate
  rw [if_pos ⟨hstage, rfl⟩]
  have hbuild : build excluded ((Memory.accepted text translation).conversion path).events =
      .ok (builtFrom excluded text) := build_streamOf excluded text
  rw [hbuild]
  simp only [Memory.conversion, Memory.query, Translation.query_translated]
  rfl

/-- Post-processing names the facets of a translation once. -/
theorem postprocess_accepted (text : String) (tr : Translation) :
    ((Memory.accepted text (some tr)).conversion path).postprocess.value =
      (.ok (!tr.postprocessed && (builtFrom tr.excluded text).targetsCmip6),
        (Memory.accepted text (some { tr with postprocessed := true })).conversion path) := by
  obtain ⟨excluded, done⟩ := tr
  cases done with
  | true => rfl
  | false =>
      have hbefore : ((Memory.accepted text (some ⟨excluded, false⟩)).conversion path).query =
          builtFrom excluded text := Translation.query_translated excluded text
      have hafter : Translation.query ⟨excluded, true⟩ text =
          (builtFrom excluded text).postprocess.2 := by
        unfold Translation.query Query.postprocess
        cases (builtFrom excluded text).targetsCmip6 <;> rfl
      have hstage : ((Memory.accepted text (some ⟨excluded, false⟩)).conversion path).stage ≠
          .postprocessed := fun h => nomatch (show Stage.translated = .postprocessed from h)
      unfold Conversion.postprocess
      rw [if_pos ⟨rfl, rfl⟩, if_neg hstage, hbefore]
      simp only [Query.fst_postprocess, Memory.conversion, Memory.query, hafter]
      rfl

/-- A translation of an accepted text is shown as it was left. -/
theorem render_conversion (format : Format) :
    Answer.of .rendered ((m.conversion path).render format) = m.shown path format := by
  cases m with
  | blank => rfl
  | refused text => rfl
  | accepted text translation =>
      cases translation with
      | none => rfl
      | some tr =>
          have hstage : (Memory.accepted text (some tr)).stage.hasQuery = true := by
            cases h : tr.postprocessed <;> simp [Memory.stage, h, Stage.hasQuery]
          unfold Conversion.render
          rw [if_pos ⟨hstage, rfl⟩]
          simp only [Memory.conversion, Memory.query, Memory.shown]
          cases (tr.query text).render format <;> rfl

/-- A text that is taken through all steps is left translated and post-processed, if it is accepted. -/
theorem process_conversion (text : String) (excluded : Exclusions) (format : Format) :
    ((m.conversion path).process text excluded format).value.map (.of .rendered) id =
      match Selection.events text.toList with
      | .ok _ => ((Memory.accepted text (some ⟨excluded, true⟩)).shown path format,
          (Memory.accepted text (some ⟨excluded, true⟩)).conversion path)
      | .error f => (.refused (.grammar f), (Memory.refused text).conversion path) := by
  simp only [Conversion.process, Logged.value_bind, parse_conversion]
  cases Selection.events text.toList with
  | error f => rfl
  | ok es =>
      simp only [Logged.value_bind, translate_accepted, postprocess_accepted, Logged.value_pure,
        Prod.map_apply, render_conversion, id]

/-- **A conversion is what its memory describes**, and stays so with every call. -/
theorem call_conversion (k : Call) :
    (m.conversion path).call k = (m.answer path k, (m.next k).conversion path) := by
  cases k with
  | parse text =>
      simp only [Conversion.call, parse_conversion, Memory.answer, Memory.next_parse, Memory.ofText]
      cases Selection.events text.toList <;> rfl
  | translate excluded =>
      cases m with
      | blank => rfl
      | refused text => rfl
      | accepted text translation =>
          simp only [Conversion.call, translate_accepted]
          rfl
  | postprocess =>
      cases m with
      | blank => rfl
      | refused text => rfl
      | accepted text translation =>
          cases translation with
          | none => rfl
          | some tr =>
              simp only [Conversion.call, postprocess_accepted]
              rfl
  | render format =>
      simp only [Conversion.call, render_conversion, Memory.next_render]
      rfl
  | process text excluded format =>
      simp only [Conversion.call, process_conversion, Memory.answer, Memory.next_process, Memory.ofText]
      cases Selection.events text.toList <;> rfl

end Call

/-! ## Any calls -/

theorem after_conversion (path : Path) (m : Memory) (calls : List Call) :
    (m.conversion path).after calls = (m.after calls).conversion path := by
  induction calls generalizing m with
  | nil => rfl
  | cons k ks ih =>
      show ((m.conversion path).call k).2.after ks = ((m.next k).after ks).conversion path
      rw [call_conversion]
      exact ih (m.next k)

/-- Nobody can tell the conversion from its memory. -/
theorem trace_conversion (path : Path) (m : Memory) (calls : List Call) :
    (m.conversion path).trace calls = m.trace path calls := by
  induction calls generalizing m with
  | nil => rfl
  | cons k ks ih =>
      simp only [Conversion.trace, Memory.trace, call_conversion, ih]
      rfl

end FacetQuery

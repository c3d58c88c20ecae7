import FacetQuery.Proofs.Conversion.Ends
import FacetQuery.Proofs.Output.Persistence

/-!
# `FacetQuery.Proofs.Batch.Sinks` — one path, and what becomes of it with each sink

Where renderings go plays no part until there is one. Up to there the settings alone decide what comes of a path:
it has a rendering (`Settings.Renders`), or one of four things stands in the way of one (`Settings.Spared`). With
either sink the second kind of path comes to the same outcome, and the files stay what they are.

A rendering that goes into a file is the one that would be reported. Whether it gets there depends on the system, so
what may become of a path is stated as a relation (`Batch.Becomes`): any step in the writing of its output may be
refused, and converting it at once is one way among these. While nobody else touches the files, each stage of writing
says what the files are (`Output.Undisturbed`): before the end they differ from what they were by a staging file,
which leaves no trace when it goes, and in the end by the output or by nothing.

Main statement: `Settings.sinks_agree`.
-/

namespace FacetQuery

open Selection

/-! ## Up to the rendering -/

namespace Settings

/-- The path has the extension asked for, a text is read from its file, and the text is rendered so. -/
structure Renders (st : Settings) (store : FileStore) (p : Path) (rendering : String) : Prop where
  accepted : st.inputExtension.all p.hasExtension = true
  rendered : ∃ text, readInput store p = .ok text ∧
    ((Conversion.start p).process text st.exclude st.format).value.1 = .ok rendering

/-- What stands in the way of a rendering, and the outcome that it leads to. -/
inductive Spared (st : Settings) (store : FileStore) (p : Path) : Outcome → Prop
  /-- The path has another extension than the one asked for. -/
  | otherExtension {ext} (hwanted : st.inputExtension = some ext) (h : p.hasExtension ext = false) :
      Spared st store p (.skipped (.otherExtension ext))
  /-- No text can be read from the file. -/
  | unreadable {f} (haccepted : st.inputExtension.all p.hasExtension = true)
      (h : readInput store p = .error f) : Spared st store p (.failed f)
  /-- The grammar refuses the text. -/
  | refused {text m} (haccepted : st.inputExtension.all p.hasExtension = true)
      (hread : readInput store p = .ok text) (h : Selection.events text.toList = .error m) :
      Spared st store p (.failed (.grammar m))
  /-- Every line of the text is dropped. -/
  | dropped {text ss} (haccepted : st.inputExtension.all p.hasExtension = true)
      (hread : readInput store p = .ok text) (hsel : SelectionText text.toList ss)
      (h : ∀ s ∈ ss, s.Dropped st.exclude) : Spared st store p .empty

end Settings

namespace Batch

section Prepare

variable {b : Batch} {store : FileStore} {p : Path} {text : String}

theorem rendered_eq_inr_iff {rendering : String} :
    b.rendered p text = .inr rendering ↔
      ((Conversion.start p).process text b.settings.exclude b.settings.format).value.1 = .ok rendering := by
  unfold rendered
  cases ((Conversion.start p).process text b.settings.exclude b.settings.format).value.1 with
  | ok r => simp
  | error f => cases hf : f.isInformational <;> simp [hf]

theorem rendered_of_refused {m : Mismatch} (h : Selection.events text.toList = .error m) :
    b.rendered p text = .inl (.failed (.grammar m)) := by
  rw [rendered, Conversion.process_of_refused h]
  rfl

theorem rendered_of_dropped {ss : List Statement} (hsel : SelectionText text.toList ss)
    (h : ∀ s ∈ ss, s.Dropped b.settings.exclude) : b.rendered p text = .inl .empty := by
  rw [rendered, Conversion.process_of_selectionText hsel, Query.ofSelection_eq_empty_iff.mpr h,
    Query.render_eq_none_iff.mpr rfl]
  rfl

/-- A text that is not rendered is refused by the grammar, or all its lines are dropped. -/
theorem rendered_cases (h : ∀ rendering, b.rendered p text ≠ .inr rendering) :
    (∃ m, Selection.events text.toList = .error m) ∨
      ∃ ss, SelectionText text.toList ss ∧ ∀ s ∈ ss, s.Dropped b.settings.exclude := by
  cases hevents : Selection.events text.toList with
  | error m => exact .inl ⟨m, rfl⟩
  | ok es =>
      obtain ⟨ss, hsel, -, -⟩ := exists_statements_of_events hevents
      refine .inr ⟨ss, hsel, ?_⟩
      rw [← Query.ofSelection_eq_empty_iff, ← Query.render_eq_none_iff (f := b.settings.format)]
      cases hrender : (Query.ofSelection b.settings.exclude ss).render b.settings.format with
      | none => rfl
      | some rendering =>
          refine absurd (rendered_eq_inr_iff.mpr ?_) (h rendering)
          rw [Conversion.process_of_selectionText hsel, hrender]

/-- What it takes to have a rendering. -/
theorem prepare_eq_inr_iff {rendering : String} :
    (b.prepare store p).value = .inr rendering ↔ b.settings.Renders store p rendering := by
  constructor
  · intro h
    obtain ⟨haccepts, text, hread⟩ := accepts_of_prepare h
    rw [prepare_of_accepts haccepts, hread] at h
    exact ⟨haccepts, text, hread, rendered_eq_inr_iff.mp h⟩
  · rintro ⟨haccepts, text, hread, hrendered⟩
    rw [prepare_of_accepts haccepts, hread]
    exact rendered_eq_inr_iff.mpr hrendered

/-- What has no rendering is spared, with the outcome that this leads to. -/
theorem prepare_of_spared {outcome : Outcome} (h : b.settings.Spared store p outcome) :
    (b.prepare store p).value = .inl outcome := by
  cases h with
  | otherExtension hwanted h => exact prepare_of_otherExtension hwanted h store
  | unreadable haccepted h => rw [prepare_of_accepts haccepted, h]
  | refused haccepted hread h =>
      rw [prepare_of_accepts haccepted, hread]
      exact rendered_of_refused h
  | dropped haccepted hread hsel h =>
      rw [prepare_of_accepts haccepted, hread]
      exact rendered_of_dropped hsel h

/-- A path has a rendering, or something stands in the way of one. -/
theorem renders_or_spared (st : Settings) (store : FileStore) (p : Path) :
    (∃ rendering, st.Renders store p rendering) ∨ ∃ outcome, st.Spared store p outcome := by
  by_cases hrenders : ∃ rendering, st.Renders store p rendering
  · exact .inl hrenders
  refine .inr ?_
  cases haccepts : accepts ⟨st, .collect⟩ p with
  | false =>
      obtain ⟨ext, hwanted, h⟩ := accepts_eq_false_iff.mp haccepts
      exact ⟨_, .otherExtension hwanted h⟩
  | true =>
      cases hread : readInput store p with
      | error f => exact ⟨_, .unreadable haccepts hread⟩
      | ok text =>
          have hnot : ∀ rendering, rendered ⟨st, .collect⟩ p text ≠ .inr rendering := fun rendering h =>
            hrenders ⟨rendering, haccepts, text, hread, (rendered_eq_inr_iff (b := ⟨st, .collect⟩)).mp h⟩
          rcases rendered_cases hnot with ⟨m, hm⟩ | ⟨ss, hsel, hdropped⟩
          · exact ⟨_, .refused haccepts hread hm⟩
          · exact ⟨_, .dropped haccepts hread hsel hdropped⟩

/-- With either sink the outcome of a path that is spared is the same. -/
theorem convert_of_spared {outcome : Outcome} (h : b.settings.Spared store p outcome) :
    (b.convert store p).value = (outcome, store) := by
  refine convert_of_inl ?_
  rw [value_judge, prepare_of_spared h]

/-- A rendering that nobody has to write is reported, and that is all. -/
theorem convert_collect {rendering : String} {st : Settings} (h : st.Renders store p rendering) :
    (convert ⟨st, .collect⟩ store p).value = (.collected rendering, store) := by
  refine convert_of_inl ?_
  rw [value_judge, prepare_eq_inr_iff.mpr h]
  rfl

/-- A rendering that would replace its own input is not written. -/
theorem judge_files_of_same {rendering : String} {st : Settings} (h : st.Renders store p rendering)
    (hsame : (outputPath ⟨st, .files⟩ p).same p = true) :
    (judge ⟨st, .files⟩ store p).value = .inl (.skipped .ownInput) := by
  rw [value_judge, prepare_eq_inr_iff.mpr h]
  simp only [settle, hsame, if_true]

/-- Every other one is handed on to be written. -/
theorem judge_files_of_other {rendering : String} {st : Settings} (h : st.Renders store p rendering)
    (hsame : (outputPath ⟨st, .files⟩ p).same p = false) :
    (judge ⟨st, .files⟩ store p).value = .inr ⟨outputPath ⟨st, .files⟩ p, rendering, st.overwrite⟩ :=
  judge_eq_inr_iff.mpr ⟨rfl, hsame, rendering, prepare_eq_inr_iff.mpr h, rfl⟩

end Prepare

end Batch

/-! ## Writing, while nobody else touches the files -/

section Undisturbed

variable {fresh : Place → Prop} {store s t : FileStore} {o : Output} {w x : Writing}

/-- What the files are at each stage of writing `o` if they were those of `store`, and nobody else touches them. -/
inductive Output.Undisturbed (store : FileStore) (o : Output) : FileStore → Writing → Prop
  | ready : Undisturbed store o store .ready
  | created {dir name} (hdir : store.directoryOf o.path = .ok dir)
      (hfree : store.get? (dir ++ [name]) = none) :
      Undisturbed store o (store.insert (dir ++ [name]) (.file .empty)) (.created (dir ++ [name]))
  | filled {dir name} (hdir : store.directoryOf o.path = .ok dir)
      (hfree : store.get? (dir ++ [name]) = none) :
      Undisturbed store o (store.insert (dir ++ [name]) (.file o.contents.toUTF8)) (.filled (dir ++ [name]))
  | failed {f} : Undisturbed store o store (.ended (.error f))
  | landed {place} (h : o.Lands store place) :
      Undisturbed store o (store.insert place (.file o.contents.toUTF8)) (.ended (.ok ()))

/-- A staging file that is given up, for whatever reason, leaves the files as they were. -/
theorem Output.Undisturbed.refused {staging : Place} (h : Undisturbed store o s (.filled staging))
    (f : FileFault) : Undisturbed store o (s.erase staging) (.ended (o.verdict (.error f))) := by
  cases h with
  | filled hdir hfree =>
      obtain ⟨g, hg⟩ := o.verdict_error f
      rw [hg, FileStore.erase_insert hfree]
      exact .failed

/-- A move puts the output in its place, or the staging file is given up. -/
theorem Output.Undisturbed.moved {staging : Place} (h : Undisturbed store o s (.filled staging)) :
    Undisturbed store o (s.moveInto staging o.path o.overwrite).2
      (.ended (o.verdict (s.moveInto staging o.path o.overwrite).1)) := by
  have hgone := h.refused
  cases h with
  | @filled dir name hdir hfree =>
      have hnow : (store.insert (dir ++ [name]) (.file o.contents.toUTF8)).get? (dir ++ [name]) =
          some (.file o.contents.toUTF8) := by
        rw [FileStore.get?_insert _ _ _ _ (by simp), if_pos rfl]
      cases htarget : (store.insert (dir ++ [name]) (.file o.contents.toUTF8)).target o.path o.overwrite with
      | error f =>
          rw [FileStore.moveInto_of_target_error hnow htarget]
          exact hgone f
      | ok place =>
          rw [FileStore.moveInto_of_target hnow htarget, FileStore.erase_insert hfree]
          exact .landed (Output.lands_of_target_staged hdir hfree htarget)

/-- A step leads from stage to stage. -/
theorem Output.Step.undisturbed (hstep : Output.Step fresh o (s, w) (t, x))
    (h : o.Undisturbed store s w) : o.Undisturbed store t x := by
  cases hstep with
  | create hdir _ hfree =>
      cases h
      exact .created hdir hfree
  | createFails f =>
      cases h
      exact .failed
  | fill =>
      cases h with
      | created hdir hfree =>
          rw [FileStore.insert_insert]
          exact .filled hdir hfree
  | fillFails f =>
      cases h with
      | created hdir hfree =>
          rw [FileStore.erase_insert hfree]
          exact .failed
  | move => exact h.moved
  | moveFails f => exact h.refused f

/-- The steps in the writing of an output are those of a call that is alone. -/
theorem Output.Steps.turns {c d : FileStore × Writing} (h : Output.Steps fresh o c d) :
    Writers.Turns fresh ⟨c.1, [(o, c.2)]⟩ ⟨d.1, [(o, d.2)]⟩ := by
  induction h with
  | refl => exact .refl
  | tail _ hstep ih => exact .tail ih (.step (i := 0) rfl hstep)

namespace Writers

variable {c d : Writers} {i : Nat}

/-- A step of a call that is alone leads from stage to stage. -/
theorem Turn.undisturbed (hturn : Turn fresh i c d)
    (h : ∃ w, c.calls = [(o, w)] ∧ o.Undisturbed store c.store w) :
    ∃ w, d.calls = [(o, w)] ∧ o.Undisturbed store d.store w := by
  obtain ⟨w, hcalls, hw⟩ := h
  have hindex : ∀ {call}, c.calls[i]? = some call → i = 0 ∧ call = (o, w) := by
    intro call hcall
    rw [hcalls] at hcall
    cases i with
    | zero => exact ⟨rfl, (Option.some.inj hcall).symm⟩
    | succ i => exact nomatch hcall
  cases hturn with
  | step hcall hstep =>
      obtain ⟨rfl, hsame⟩ := hindex hcall
      cases hsame
      exact ⟨_, by rw [hcalls]; rfl, hstep.undisturbed hw⟩

theorem Turns.undisturbed (h : Turns fresh (start store [o]) c) :
    ∃ w, c.calls = [(o, w)] ∧ o.Undisturbed store c.store w := by
  generalize hstart : start store [o] = s at h
  induction h with
  | refl =>
      subst hstart
      exact ⟨.ready, rfl, .ready⟩
  | tail _ hturn ih => exact hturn.undisturbed ih

/-- A call that is alone changes nothing, or puts its output where it lands. -/
theorem Turns.returned_alone {r : Except Fault Unit} (h : Turns fresh (start store [o]) c)
    (hr : c.Returned 0 r) :
    (∃ f, r = .error f ∧ c.store = store) ∨
      (r = .ok () ∧ ∃ place, o.Lands store place ∧
        c.store = store.insert place (.file o.contents.toUTF8)) := by
  obtain ⟨w, hcalls, hw⟩ := h.undisturbed
  obtain ⟨o', hended⟩ := hr
  rw [hcalls] at hended
  cases hended
  generalize hfiles : c.store = files at hw
  cases hw with
  | failed => exact .inl ⟨_, rfl, rfl⟩
  | landed hlands => exact .inr ⟨rfl, _, hlands, rfl⟩

end Writers

end Undisturbed

/-! ## What may become of a path -/

namespace Batch

/-- What may come of a path and of the files while nobody else touches them: it has nothing to write, or it has an
    output and any step in the writing of it may have been refused. -/
inductive Becomes (b : Batch) (store : FileStore) (p : Path) : Outcome → FileStore → Prop
  | settled {outcome} (h : (b.judge store p).value = .inl outcome) : Becomes b store p outcome store
  | tried {o c r} (h : (b.judge store p).value = .inr o)
      (hturns : Writers.Turns (fun _ => True) (Writers.start store [o]) c) (hr : c.Returned 0 r) :
      Becomes b store p (conclude p o r).value c.store

section Becomes

variable {b : Batch} {store after : FileStore} {p : Path} {outcome : Outcome}

/-- Converting a path at once is one way. -/
theorem becomes_convert (b : Batch) (store : FileStore) (p : Path) :
    b.Becomes store p (b.convert store p).value.1 (b.convert store p).value.2 := by
  cases hjudge : (b.judge store p).value with
  | inl outcome =>
      rw [convert_of_inl hjudge]
      exact .settled hjudge
  | inr o =>
      rw [convert_of_inr hjudge]
      have hsteps := @Output.write_steps (fun _ => True) o store fun _ => trivial
      exact .tried hjudge hsteps.turns ⟨o, rfl⟩

/-- A path is written where its output lands, or the files stay what they are. -/
theorem Becomes.cases (h : b.Becomes store p outcome after) :
    ((∀ path, outcome ≠ .written path) ∧ after = store) ∨
      ∃ o place, (b.judge store p).value = .inr o ∧ o.Lands store place ∧
        outcome = .written o.path ∧ after = store.insert place (.file o.contents.toUTF8) := by
  cases h with
  | settled h =>
      refine .inl ⟨fun path hpath => ?_, rfl⟩
      rw [hpath] at h
      exact judge_ne_written b store p path h
  | @tried o c r h hturns hr =>
      rcases hturns.returned_alone hr with ⟨f, rfl, hstore⟩ | ⟨rfl, place, hlands, hstore⟩
      · exact .inl ⟨fun path => nofun, hstore⟩
      · exact .inr ⟨o, place, h, hlands, rfl, hstore⟩

/-- A path with an output to write is written, or fails. -/
theorem Becomes.written_or_failed {o : Output} (h : b.Becomes store p outcome after)
    (hjudge : (b.judge store p).value = .inr o) : outcome = .written o.path ∨ ∃ f, outcome = .failed f := by
  cases h with
  | settled h => exact nomatch h.symm.trans hjudge
  | @tried o' c r h hturns hr =>
      cases Sum.inr.inj (h.symm.trans hjudge)
      cases r with
      | ok _ => exact .inl rfl
      | error f => exact .inr ⟨f, rfl⟩

/-- What a path holds is not changed by its own conversion. -/
theorem Becomes.entryAt?_input (hvalid : b.settings.validate = .ok ()) (h : b.Becomes store p outcome after) :
    after.entryAt? p = store.entryAt? p := by
  rcases h.cases with ⟨-, rfl⟩ | ⟨o, place, hjudge, hlands, -, rfl⟩
  · rfl
  · have htree := FileStore.sameTree_insert (s := store) o.contents.toUTF8 hlands.not_directory
    refine htree.entryAt?_eq fun q hq => ?_
    rw [FileStore.get?_insert _ _ _ _ (FileStore.ne_nil_of_get?_ne hlands.not_directory), if_neg]
    rintro rfl
    -- a path that names the place of its output would be its own output, and have nothing to write
    have hself := outputPath_eq_self_of_meets hvalid hjudge hlands hq
    have hother := (judge_eq_inr_iff.mp hjudge).2.1
    rw [outputPath_same_of_eq hself] at hother
    exact nomatch hother

end Becomes

end Batch

namespace Settings

/-- What becomes of a path with each of the two sinks. -/
structure SinksAgree (st : Settings) (store : FileStore) (p : Path) : Prop where
  /-- The output can be named, so there is an outcome in each case. -/
  named : ∀ sink, (Batch.convert? ⟨st, sink⟩ store p).value = some (Batch.convert ⟨st, sink⟩ store p).value
  collect_store : (Batch.convert ⟨st, .collect⟩ store p).value.2 = store
  collected_iff : ∀ rendering,
    (Batch.convert ⟨st, .collect⟩ store p).value.1 = .collected rendering ↔ st.Renders store p rendering
  reached_iff : ∀ rendering,
    (Batch.prepare ⟨st, .files⟩ store p).value = .inr rendering ↔ st.Renders store p rendering
  /-- A path that has no rendering comes to the same with either sink. -/
  cases : (∃ rendering, st.Renders store p rendering) ∨ ∃ outcome, st.Spared store p outcome
  spared : ∀ outcome, st.Spared store p outcome →
    ∀ sink, (Batch.convert ⟨st, sink⟩ store p).value = (outcome, store)
  /-- A rendering is handed on to be written, except over its own input. -/
  own_input : ∀ rendering, st.Renders store p rendering → (Batch.outputPath ⟨st, .files⟩ p).same p = true →
    ∃ reason : SkipReason, reason.message = "output would replace the input" ∧
      (Batch.convert ⟨st, .files⟩ store p).value = (.skipped reason, store)
  output : ∀ rendering, st.Renders store p rendering → (Batch.outputPath ⟨st, .files⟩ p).same p = false →
    (Batch.convert ⟨st, .files⟩ store p).value.1 =
      match (Output.write ⟨Batch.outputPath ⟨st, .files⟩ p, rendering, st.overwrite⟩ store).value.1 with
      | .ok _ => .written (Batch.outputPath ⟨st, .files⟩ p)
      | .error f => .failed f
  tried : ∀ rendering, st.Renders store p rendering → (Batch.outputPath ⟨st, .files⟩ p).same p = false →
    ∀ outcome after, Batch.Becomes ⟨st, .files⟩ store p outcome after →
      outcome = .written (Batch.outputPath ⟨st, .files⟩ p) ∨ ∃ f, outcome = .failed f
  converts : Batch.Becomes ⟨st, .files⟩ store p (Batch.convert ⟨st, .files⟩ store p).value.1
    (Batch.convert ⟨st, .files⟩ store p).value.2
  /-- Whatever the system refuses: the files change only if the output is written, and then only in its place. -/
  unwritten : ∀ outcome after, Batch.Becomes ⟨st, .files⟩ store p outcome after →
    (∀ path, outcome ≠ .written path) → after = store
  written : ∀ path after, Batch.Becomes ⟨st, .files⟩ store p (.written path) after →
    path = Batch.outputPath ⟨st, .files⟩ p ∧ ∃ rendering place, st.Renders store p rendering ∧
      store.resolve path.text.toList = .ok place ∧ after = store.insert place (.file rendering.toUTF8) ∧
      after.entryAt? path = some (.file rendering.toUTF8)
  input : ∀ outcome after, Batch.Becomes ⟨st, .files⟩ store p outcome after →
    after.entryAt? p = store.entryAt? p

/-- **The sinks agree.** Under valid settings every path comes to an outcome with each of them. Where renderings are
    reported no file changes, and a rendering is reported iff the path has one. Where they go into files it is the same
    rendering that is written, unless it would replace the input. A path that has none comes to the same with both.
    Whatever the system refuses, the files change only if the output is reported as written: then its place holds the
    rendering, and every other place is as it was, that of the input among them. -/
theorem sinks_agree {st : Settings} (hvalid : st.validate = .ok ()) (store : FileStore) (p : Path) :
    st.SinksAgree store p where
  named sink := (Batch.convert?_of_validate (b := ⟨st, sink⟩) hvalid store p).1
  collect_store := by
    rcases Batch.renders_or_spared st store p with ⟨rendering, h⟩ | ⟨outcome, h⟩
    · rw [Batch.convert_collect h]
    · rw [Batch.convert_of_spared h]
  collected_iff rendering := by
    constructor
    · intro hcollected
      rcases Batch.renders_or_spared st store p with ⟨r, h⟩ | ⟨outcome, h⟩
      · rw [Batch.convert_collect h] at hcollected
        cases hcollected
        exact h
      · rw [Batch.convert_of_spared h] at hcollected
        cases hcollected
        exact nomatch h
    · intro h
      rw [Batch.convert_collect h]
  reached_iff _ := Batch.prepare_eq_inr_iff
  cases := Batch.renders_or_spared st store p
  spared outcome h sink := Batch.convert_of_spared (b := ⟨st, sink⟩) h
  own_input rendering h hsame := by
    exact ⟨.ownInput, rfl, Batch.convert_of_inl (Batch.judge_files_of_same h hsame)⟩
  output rendering h hsame := by
    rw [Batch.convert_of_inr (Batch.judge_files_of_other h hsame)]
    cases (Output.write ⟨Batch.outputPath ⟨st, .files⟩ p, rendering, st.overwrite⟩ store).value.1 with
    | ok _ => rfl
    | error f => rfl
  tried rendering h hsame outcome after hbecomes :=
    hbecomes.written_or_failed (Batch.judge_files_of_other h hsame)
  converts := Batch.becomes_convert _ store p
  unwritten outcome after h hnot := by
    rcases h.cases with ⟨-, hstore⟩ | ⟨o, place, -, -, hwritten, -⟩
    · exact hstore
    · exact absurd hwritten (hnot o.path)
  written path after h := by
    rcases h.cases with ⟨hnot, -⟩ | ⟨o, place, hjudge, hlands, hwritten, rfl⟩
    · exact absurd rfl (hnot path)
    · cases hwritten
      obtain ⟨-, -, rendering, hprepare, rfl⟩ := Batch.judge_eq_inr_iff.mp hjudge
      have htree := FileStore.sameTree_insert (s := store) rendering.toUTF8 hlands.not_directory
      refine ⟨rfl, rendering, place, Batch.prepare_eq_inr_iff.mp hprepare, hlands.resolve, rfl, ?_⟩
      rw [FileStore.entryAt?_of_resolve (htree.resolve hlands.resolve),
        FileStore.get?_insert _ _ _ _ (FileStore.ne_nil_of_get?_ne hlands.not_directory), if_pos rfl]
  input outcome after h := h.entryAt?_input hvalid

/-- A directory with a selection, and with what was made of it at another time. -/
def outdated : FileStore :=
  ⟨["w"], [(["w"], .directory), (["w", "sel.txt"], .file "model=FIRST\n".toUTF8),
    (["w", "sel.yaml"], .file "model: \"EARLIER\"\n".toUTF8)]⟩

/-- What is reported with one sink takes the place of the old output with the other. -/
theorem sinks_agree_outdated :
    default.validate = .ok () ∧
    (Batch.convert ⟨default, .collect⟩ outdated ⟨"sel.txt"⟩).value.1 = .collected "model: \"FIRST\"\n" ∧
    (Batch.convert ⟨default, .files⟩ outdated ⟨"sel.txt"⟩).value.1 = .written ⟨"sel.yaml"⟩ ∧
    (Batch.convert ⟨default, .files⟩ outdated ⟨"sel.txt"⟩).value.2.entryAt? ⟨"sel.yaml"⟩ =
      some (.file "model: \"FIRST\"\n".toUTF8) ∧
    (Batch.convert ⟨default, .files⟩ outdated ⟨"sel.txt"⟩).value.2.entryAt? ⟨"sel.txt"⟩ =
      some (.file "model=FIRST\n".toUTF8) := by
  have hagree : default.SinksAgree outdated ⟨"sel.txt"⟩ := sinks_agree rfl outdated ⟨"sel.txt"⟩
  have hresolve : outdated.resolve "sel.txt".toList = .ok ["w", "sel.txt"] := rfl
  have hfile : outdated.get? ["w", "sel.txt"] = some (.file "model=FIRST\n".toUTF8) := rfl
  have hprepare : (Batch.prepare ⟨default, .files⟩ outdated ⟨"sel.txt"⟩).value =
      .inr "model: \"FIRST\"\n" := (Batch.prepare_of_file rfl hresolve hfile).trans (by decide +kernel)
  have hrenders : default.Renders outdated ⟨"sel.txt"⟩ "model: \"FIRST\"\n" :=
    Batch.prepare_eq_inr_iff.mp hprepare
  have hlands : Output.Lands ⟨⟨"sel.yaml"⟩, "model: \"FIRST\"\n", true⟩ outdated ["w", "sel.yaml"] :=
    ⟨⟨["w"], rfl⟩, rfl⟩
  have hwritten : (Batch.convert ⟨default, .files⟩ outdated ⟨"sel.txt"⟩).value.1 = .written ⟨"sel.yaml"⟩ :=
    Batch.convert_of_lands (Batch.judge_eq_inr_iff.mpr ⟨rfl, rfl, _, hprepare, rfl⟩) hlands
  refine ⟨rfl, (hagree.collected_iff _).mpr hrenders, hwritten, ?_, ?_⟩
  · have hbecomes := hagree.converts
    rw [hwritten] at hbecomes
    obtain ⟨-, rendering, place, h, -, -, hentry⟩ := hagree.written _ _ hbecomes
    have hsame := (Batch.prepare_eq_inr_iff (b := ⟨default, .files⟩)).mpr h
    rw [Sum.inr.inj (hsame.symm.trans hprepare)] at hentry
    exact hentry
  · rw [hagree.input _ _ hagree.converts]
    exact (FileStore.entryAt?_of_resolve hresolve).trans hfile

end Settings

end FacetQuery

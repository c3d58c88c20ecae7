import FacetQuery.Batch
import FacetQuery.Proofs.FileStore.Tree

/-!
# `FacetQuery.Proofs.Batch.Alone` — one path, and what it shares with others

What comes of a path depends on the directories, on what stands at the place that it names, and, when its
output is moved without leave to replace anything, on whether something stands at the place of the output.
Each dependency is stated for two stores with the same directories, so that one of them can be the store
before a batch and the other the store at any moment of it.

A path that names the place of another path's output is its own output (`outputPath_eq_self_of_meets`):
replacing the extension twice does nothing more. Such a path has nothing to write.

## Contents
- `Outcome.Agrees`, outcomes that differ at most in the fault.
- `Output.Lands`, and `Output.write` where an output lands and where it does not.
- `Batch.rendered`, `judge` and `convert` case by case.
- `attend_of_unclaimed` and `attend_of_claimed`, a path that has others before it.
- `judge_agrees`, on two stores; `outputPath_eq_self_of_meets`.
-/

namespace FacetQuery

/-! ## Outcomes up to the fault -/

/-- Two outcomes are the same, or both are failures. -/
def Outcome.Agrees (a b : Outcome) : Prop := a = b ∨ ∃ f g, a = .failed f ∧ b = .failed g

namespace Outcome

theorem Agrees.refl (a : Outcome) : a.Agrees a := .inl rfl

theorem Agrees.symm {a b : Outcome} : a.Agrees b → b.Agrees a
  | .inl h => .inl h.symm
  | .inr ⟨f, g, ha, hb⟩ => .inr ⟨g, f, hb, ha⟩

theorem Agrees.trans {a b c : Outcome} (h : a.Agrees b) (h' : b.Agrees c) : a.Agrees c := by
  rcases h with rfl | ⟨f, g, rfl, rfl⟩
  · exact h'
  · rcases h' with rfl | ⟨_, k, -, rfl⟩
    · exact .inr ⟨f, g, rfl, rfl⟩
    · exact .inr ⟨f, k, rfl, rfl⟩

theorem agrees_failed (f g : Fault) : (failed f).Agrees (failed g) := .inr ⟨f, g, rfl, rfl⟩

/-- A written output is told from everything else. -/
theorem Agrees.eq_written {a : Outcome} {path : Path} (h : a.Agrees (.written path)) :
    a = .written path := by
  rcases h with rfl | ⟨_, _, -, h⟩
  · rfl
  · exact nomatch h

end Outcome

/-! ## Where an output lands -/

/-- The output can be staged, and then moved to the place. -/
structure Output.Lands (o : Output) (s : FileStore) (place : Place) : Prop where
  staged : ∃ dir, s.directoryOf o.path = .ok dir
  moved : s.target o.path o.overwrite = .ok place

section Lands

variable {o : Output} {s t : FileStore} {place : Place}

theorem Output.Lands.unique {q : Place} (h : o.Lands s place) (h' : o.Lands s q) : q = place :=
  Except.ok.inj (h'.moved.symm.trans h.moved)

theorem Output.Lands.resolve (h : o.Lands s place) : s.resolve o.path.text.toList = .ok place :=
  (FileStore.target_eq_ok_iff.mp h.moved).1

theorem Output.Lands.not_directory (h : o.Lands s place) : s.get? place ≠ some .directory :=
  (FileStore.get?_of_target h.moved).1

/-- A staging file has another name than its output. -/
theorem Output.Lands.ne_staging (h : o.Lands s place) (dir : Place) :
    place ≠ dir ++ [s.freeName dir o.path] := by
  obtain ⟨hresolve, hname, hfile, -⟩ := FileStore.target_eq_ok_iff.mp h.moved
  intro heq
  rcases FileStore.lastSegment_of_resolve hresolve hfile with ⟨-, hlast⟩ | hparent
  · rw [heq, List.getLast?_concat] at hlast
    apply (s.freeName_free dir o.path).2
    rw [Path.fileName?, Path.locate?_of_isName hname, Option.map_some]
    exact hlast.symm
  · exact hname.2.2 hparent

/-- The output lands at the same place as long as nothing comes in its way there. -/
theorem Output.Lands.of_sameTree (h : o.Lands s place) (htree : FileStore.SameTree s t)
    (hfree : o.overwrite = false → t.get? place = none) : o.Lands t place := by
  obtain ⟨dir, hdir⟩ := h.staged
  exact ⟨⟨dir, htree.directoryOf hdir⟩, htree.target h.moved hfree⟩

/-- The output has the same goal when its staging file is there. -/
theorem Output.Lands.target_staged (h : o.Lands s place) {staging : Place}
    (hnil : staging ≠ []) (hfree : s.get? staging = none) (hne : place ≠ staging)
    (bytes : ByteArray) :
    (s.insert staging (.file bytes)).target o.path o.overwrite = .ok place := by
  have htree : FileStore.SameTree s (s.insert staging (.file bytes)) :=
    FileStore.sameTree_insert bytes (by simp [hfree])
  refine htree.target h.moved fun ho => ?_
  rw [FileStore.get?_insert _ _ _ _ hnil, if_neg hne]
  exact (FileStore.get?_of_target h.moved).2 ho

/-- An output lands where it can be moved to when its staging file is there: that file is in no one's way. -/
theorem Output.lands_of_target_staged {dir : Place} {name : String} {bytes : ByteArray}
    (hdir : s.directoryOf o.path = .ok dir) (hfree : s.get? (dir ++ [name]) = none)
    (htarget : (s.insert (dir ++ [name]) (.file bytes)).target o.path o.overwrite = .ok place) :
    o.Lands s place := by
  have htree : FileStore.SameTree s (s.insert (dir ++ [name]) (.file bytes)) :=
    FileStore.sameTree_insert bytes (by simp [hfree])
  refine ⟨⟨dir, hdir⟩, htree.symm.target htarget fun ho => ?_⟩
  have hnone := (FileStore.get?_of_target htarget).2 ho
  rw [FileStore.get?_insert _ _ _ _ (by simp)] at hnone
  split at hnone
  · exact nomatch hnone
  · exact hnone

/-- Where it lands, an output is written, and nothing else changes. -/
theorem Output.write_of_lands (h : o.Lands s place) :
    (o.write s).value.1 = .ok () ∧
      ∀ q, (o.write s).value.2.get? q =
        if q = place then some (.file o.contents.toUTF8) else s.get? q := by
  obtain ⟨dir, hdir⟩ := h.staged
  have hstaging := (s.freeName_free dir o.path).1
  have hnil : dir ++ [s.freeName dir o.path] ≠ [] := by simp
  have hnow : (s.insert (dir ++ [s.freeName dir o.path]) (.file o.contents.toUTF8)).get?
      (dir ++ [s.freeName dir o.path]) = some (.file o.contents.toUTF8) := by
    rw [FileStore.get?_insert _ _ _ _ hnil, if_pos rfl]
  have hmoved := FileStore.moveInto_of_target hnow
    (h.target_staged hnil hstaging (h.ne_staging dir) o.contents.toUTF8)
  have hplace : place ≠ [] := FileStore.ne_nil_of_get?_ne h.not_directory
  unfold Output.write FileStore.stage
  rw [hdir]
  simp only [bind, Except.bind, hmoved]
  refine ⟨rfl, fun q => ?_⟩
  rw [FileStore.get?_insert _ _ _ _ hplace, FileStore.get?_erase _ _ _ hnil,
    FileStore.get?_insert _ _ _ _ hnil]
  by_cases hq : q = dir ++ [s.freeName dir o.path]
  · subst hq
    simp [hstaging]
  · simp [hq]

theorem Output.verdict_error (o : Output) (f : FileFault) : ∃ g, o.verdict (.error f) = .error g := by
  unfold Output.verdict
  simp only
  split
  · exact ⟨_, rfl⟩
  · exact ⟨_, rfl⟩

/-- Where it lands nowhere, an output cannot be written. -/
theorem Output.write_of_not_lands (h : ∀ place, ¬ o.Lands s place) :
    ∃ f, (o.write s).value.1 = .error f := by
  unfold Output.write FileStore.stage
  cases hdir : s.directoryOf o.path with
  | error f => exact ⟨_, rfl⟩
  | ok dir =>
      have hstaging := (s.freeName_free dir o.path).1
      have hnil : dir ++ [s.freeName dir o.path] ≠ [] := by simp
      have hnow : (s.insert (dir ++ [s.freeName dir o.path]) (.file o.contents.toUTF8)).get?
          (dir ++ [s.freeName dir o.path]) = some (.file o.contents.toUTF8) := by
        rw [FileStore.get?_insert _ _ _ _ hnil, if_pos rfl]
      cases htarget : (s.insert (dir ++ [s.freeName dir o.path])
          (.file o.contents.toUTF8)).target o.path o.overwrite with
      | error f =>
          simp only [bind, Except.bind, FileStore.moveInto_of_target_error hnow htarget]
          exact o.verdict_error f
      | ok place => exact absurd (Output.lands_of_target_staged hdir hstaging htarget) (h place)

end Lands

namespace Batch

/-- Valid settings have an output extension without dots and slashes. -/
theorem plainExtension_effectiveExtension {b : Batch} (h : b.settings.validate = .ok ()) :
    Path.PlainExtension b.settings.effectiveExtension.toList := by
  have hout := (Settings.validate_eq_ok_iff.mp h).2.1
  unfold Settings.effectiveExtension
  cases he : b.settings.outputExtension with
  | none => cases b.settings.format <;> exact Path.plainExtension_of_isExtension (by decide)
  | some e => exact Path.plainExtension_of_isExtension (hout e he)

/-! ## One path case by case -/

/-- What the text of an input becomes: its rendering, or the outcome if there is none. -/
def rendered (b : Batch) (p : Path) (text : String) : Outcome ⊕ String :=
  match ((Conversion.start p).process text b.settings.exclude b.settings.format).value.1 with
  | .ok rendering => .inr rendering
  | .error f => if f.isInformational then .inl .empty else .inl (.failed f)

/-- What an accepted path becomes, short of its rendering's fate. -/
theorem prepare_of_accepts {b : Batch} {p : Path} (h : b.accepts p = true) (store : FileStore) :
    (b.prepare store p).value =
      match readInput store p with
      | .error f => .inl (.failed f)
      | .ok text => b.rendered p text := by
  have hpassed : ∀ e, b.settings.inputExtension = some e → (!p.hasExtension e) = false := by
    intro e he
    have hext : p.hasExtension e = true := by simpa [accepts, he] using h
    rw [hext]
    rfl
  unfold prepare
  cases readInput store p with
  | error f =>
      cases he : b.settings.inputExtension with
      | none => rfl
      | some e =>
          simp only [hpassed e he]
          rfl
  | ok text =>
      cases hr : ((Conversion.start p).process text b.settings.exclude b.settings.format).value.1 with
      | ok rendering =>
          cases he : b.settings.inputExtension with
          | none => simp [hr, rendered]
          | some e => simp [hpassed e he, hr, rendered]
      | error f =>
          cases he : b.settings.inputExtension with
          | none => cases hf : f.isInformational <;> simp [hr, hf, rendered, fail]
          | some e =>
              cases hf : f.isInformational <;> simp [hpassed e he, hr, hf, rendered, fail]

/-- A path is refused iff an extension is asked for, and it has another one. -/
theorem accepts_eq_false_iff {b : Batch} {p : Path} :
    b.accepts p = false ↔ ∃ e, b.settings.inputExtension = some e ∧ p.hasExtension e = false := by
  unfold accepts
  cases b.settings.inputExtension with
  | none => simp
  | some e => simp

/-- A path with another extension is passed over whatever the files are. -/
theorem prepare_of_otherExtension {b : Batch} {p : Path} {e : String}
    (he : b.settings.inputExtension = some e) (hext : p.hasExtension e = false) (store : FileStore) :
    (b.prepare store p).value = .inl (.skipped (.otherExtension e)) := by
  simp [prepare, he, hext]

theorem prepare_of_not_accepts {b : Batch} {p : Path} (h : b.accepts p = false) :
    ∃ e, ∀ store, (b.prepare store p).value = .inl (.skipped (.otherExtension e)) := by
  obtain ⟨e, he, hext⟩ := accepts_eq_false_iff.mp h
  exact ⟨e, prepare_of_otherExtension he hext⟩

/-- What has a rendering was accepted, and read. -/
theorem accepts_of_prepare {b : Batch} {store : FileStore} {p : Path} {rendering : String}
    (h : (b.prepare store p).value = .inr rendering) :
    b.accepts p = true ∧ ∃ text, readInput store p = .ok text := by
  cases haccepts : b.accepts p with
  | false =>
      obtain ⟨e, hskip⟩ := prepare_of_not_accepts haccepts
      rw [hskip store] at h
      exact nomatch h
  | true =>
      rw [prepare_of_accepts haccepts] at h
      cases hread : readInput store p with
      | error f => rw [hread] at h; exact nomatch h
      | ok text => exact ⟨rfl, text, rfl⟩

/-- A text has been read from a file. -/
theorem exists_file_of_readInput {store : FileStore} {p : Path} {text : String}
    (h : readInput store p = .ok text) :
    ∃ place bytes, store.resolve p.text.toList = .ok place ∧
      store.get? place = some (.file bytes) := by
  unfold readInput FileStore.read at h
  cases hresolve : store.resolve p.text.toList with
  | error f => rw [hresolve] at h; exact nomatch h
  | ok place =>
      rw [hresolve] at h
      simp only [bind, Except.bind] at h
      cases hget : store.get? place with
      | none => rw [hget] at h; exact nomatch h
      | some e =>
          cases e with
          | directory => rw [hget] at h; exact nomatch h
          | file bytes => exact ⟨place, bytes, rfl, hget⟩

/-- The text that is in a file is read from it. -/
theorem readInput_of_file {store : FileStore} {p : Path} {place : Place} {text : String}
    (hresolve : store.resolve p.text.toList = .ok place)
    (hfile : store.get? place = some (.file text.toUTF8)) : readInput store p = .ok text := by
  have hutf8 : String.fromUTF8? text.toUTF8 = some text := dif_pos text.isValidUTF8
  unfold readInput FileStore.read
  rw [hresolve]
  simp only [bind, Except.bind, hfile, hutf8]
  rfl

/-- What an accepted path becomes whose file holds a text. -/
theorem prepare_of_file {b : Batch} {store : FileStore} {p : Path} {place : Place} {text : String}
    (haccepts : b.accepts p = true) (hresolve : store.resolve p.text.toList = .ok place)
    (hfile : store.get? place = some (.file text.toUTF8)) :
    (b.prepare store p).value = b.rendered p text := by
  rw [prepare_of_accepts haccepts, readInput_of_file hresolve hfile]

theorem value_judge (b : Batch) (store : FileStore) (p : Path) :
    (b.judge store p).value =
      match (b.prepare store p).value with
      | .inl outcome => .inl outcome
      | .inr rendering => (b.settle p rendering).value := by
  simp only [judge, Logged.value_bind]
  cases (b.prepare store p).value <;> rfl

/-- What it takes to have an output that is yet to be written. -/
theorem judge_eq_inr_iff {b : Batch} {store : FileStore} {p : Path} {o : Output} :
    (b.judge store p).value = .inr o ↔
      b.sink = .files ∧ (b.outputPath p).same p = false ∧
        ∃ rendering, (b.prepare store p).value = .inr rendering ∧
          o = ⟨b.outputPath p, rendering, b.settings.overwrite⟩ := by
  rw [value_judge]
  cases (b.prepare store p).value with
  | inl outcome => simp
  | inr rendering =>
      simp only [Sum.inr.injEq, exists_eq_left', settle]
      cases b.sink with
      | collect => simp
      | files =>
          cases hsame : (b.outputPath p).same p with
          | true => simp
          | false => simp [eq_comm]

/-- What has an output that is yet to be written was accepted. -/
theorem accepts_of_judge {b : Batch} {store : FileStore} {p : Path} {o : Output}
    (h : (b.judge store p).value = .inr o) : b.accepts p = true := by
  obtain ⟨-, -, rendering, hprepare, -⟩ := judge_eq_inr_iff.mp h
  exact (accepts_of_prepare hprepare).1

/-- The outcomes of a path that has nothing to write, and what each of them takes. -/
inductive Judged (b : Batch) (store : FileStore) (p : Path) : Outcome → Prop
  | otherExtension {e} (h : b.accepts p = false) : Judged b store p (.skipped (.otherExtension e))
  | empty (h : b.accepts p = true) : Judged b store p .empty
  | failed {f} (h : b.accepts p = true) : Judged b store p (.failed f)
  | collected {rendering} (h : b.accepts p = true) (hsink : b.sink = .collect) :
      Judged b store p (.collected rendering)
  | ownInput {rendering} (hprepare : (b.prepare store p).value = .inr rendering)
      (hsink : b.sink = .files) (hsame : (b.outputPath p).same p = true) :
      Judged b store p (.skipped .ownInput)

/-- A path that has no rendering has another extension, or is empty, or fails. -/
theorem judged_of_prepare {b : Batch} {store : FileStore} {p : Path} {outcome : Outcome}
    (h : (b.prepare store p).value = .inl outcome) : b.Judged store p outcome := by
  cases haccepts : b.accepts p with
  | false =>
      obtain ⟨e, hskip⟩ := prepare_of_not_accepts haccepts
      rw [hskip store] at h
      cases h
      exact .otherExtension haccepts
  | true =>
      rw [prepare_of_accepts haccepts] at h
      cases hread : readInput store p with
      | error f =>
          rw [hread] at h
          cases h
          exact .failed haccepts
      | ok text =>
          simp only [hread, rendered] at h
          cases hresult : ((Conversion.start p).process text b.settings.exclude b.settings.format).value.1 with
          | ok rendering =>
              rw [hresult] at h
              exact nomatch h
          | error f =>
              simp only [hresult] at h
              split at h
              · cases h
                exact .empty haccepts
              · cases h
                exact .failed haccepts

/-- What comes of a path that has nothing to write is one of these. -/
theorem judged_of_judge {b : Batch} {store : FileStore} {p : Path} {outcome : Outcome}
    (h : (b.judge store p).value = .inl outcome) : b.Judged store p outcome := by
  rw [value_judge] at h
  cases hprepare : (b.prepare store p).value with
  | inl o =>
      rw [hprepare] at h
      cases h
      exact judged_of_prepare hprepare
  | inr rendering =>
      simp only [hprepare, settle] at h
      cases hsink : b.sink with
      | collect =>
          simp only [hsink] at h
          cases h
          exact .collected (accepts_of_prepare hprepare).1 hsink
      | files =>
          simp only [hsink] at h
          split at h
          · next hsame =>
              cases h
              exact .ownInput hprepare hsink hsame
          · exact nomatch h

/-- No output is written before it is. -/
theorem judge_ne_written (b : Batch) (store : FileStore) (p path : Path) :
    (b.judge store p).value ≠ .inl (.written path) := by
  intro h
  exact nomatch judged_of_judge h

section Convert

variable {b : Batch} {store : FileStore} {p : Path}

theorem convert_of_inl {outcome : Outcome} (h : (b.judge store p).value = .inl outcome) :
    (b.convert store p).value = (outcome, store) := by
  simp only [convert, Logged.value_bind, h, finish, Logged.value_pure]

theorem convert_of_inr {o : Output} (h : (b.judge store p).value = .inr o) :
    (b.convert store p).value =
      ((conclude p o (o.write store).value.1).value, (o.write store).value.2) := by
  simp only [convert, Logged.value_bind, h, finish, Logged.value_pure]

/-- An output that lands is written. -/
theorem convert_of_lands {o : Output} {place : Place} (h : (b.judge store p).value = .inr o)
    (hlands : o.Lands store place) : (b.convert store p).value.1 = .written o.path := by
  rw [convert_of_inr h, (Output.write_of_lands hlands).1]
  rfl

/-- An output that lands nowhere is a failure. -/
theorem convert_of_not_lands {o : Output} (h : (b.judge store p).value = .inr o)
    (hlands : ∀ place, ¬ o.Lands store place) : ∃ f, (b.convert store p).value.1 = .failed f := by
  obtain ⟨f, hf⟩ := Output.write_of_not_lands hlands
  rw [convert_of_inr h, hf]
  exact ⟨f, rfl⟩

/-- What is written has an output that lands. -/
theorem lands_of_convert {path : Path} (h : (b.convert store p).value.1 = .written path) :
    ∃ o place, (b.judge store p).value = .inr o ∧ o.path = path ∧ o.Lands store place := by
  cases hjudge : (b.judge store p).value with
  | inl outcome =>
      rw [convert_of_inl hjudge] at h
      have houtcome : outcome = .written path := h
      exact absurd (houtcome ▸ hjudge) (judge_ne_written b store p path)
  | inr o =>
      by_cases hlands : ∃ place, o.Lands store place
      · obtain ⟨place, hplace⟩ := hlands
        rw [convert_of_lands hjudge hplace] at h
        exact ⟨o, place, rfl, Outcome.written.inj h, hplace⟩
      · obtain ⟨f, hf⟩ := convert_of_not_lands hjudge (not_exists.mp hlands)
        rw [hf] at h
        exact nomatch h

/-- A path that no earlier one claims is judged. -/
theorem value_consider {earlier : List Path} (h : b.isClaimed earlier p = false)
    (store : FileStore) : (b.consider false store earlier p).value = (b.judge store p).value := by
  unfold consider
  rw [if_neg Bool.false_ne_true, h]
  rfl

/-- A path that an earlier one claims is not. -/
theorem value_consider_of_claimed {earlier : List Path} (h : b.isClaimed earlier p = true)
    (store : FileStore) : (b.consider false store earlier p).value = .inl (.skipped .claimed) := by
  unfold consider
  rw [if_neg Bool.false_ne_true, if_pos h]

/-- A path that no earlier one claims comes to what it comes to alone. -/
theorem attend_of_unclaimed {earlier : List Path} (h : b.isClaimed earlier p = false)
    (store : FileStore) : (b.attend false store earlier p).value = (b.convert store p).value := by
  simp only [attend, convert, Logged.value_bind, value_consider h]

/-- A path that an earlier one claims is passed over. -/
theorem attend_of_claimed {earlier : List Path} (h : b.isClaimed earlier p = true)
    (store : FileStore) : (b.attend false store earlier p).value = (.skipped .claimed, store) := by
  simp only [attend, Logged.value_bind, value_consider_of_claimed h, finish, Logged.value_pure]

end Convert

/-! ## Two stores -/

/-- The same comes of a path in two stores with the same directories if the same stands at the place that
    the path names; or it fails in both. -/
theorem judge_agrees {b : Batch} {s t : FileStore} {p : Path} (htree : FileStore.SameTree s t)
    (hsame : b.accepts p = true → ∀ place, s.resolve p.text.toList = .ok place →
      t.get? place = s.get? place) :
    (b.judge s p).value = (b.judge t p).value ∨
      ∃ f g, (b.judge s p).value = .inl (.failed f) ∧ (b.judge t p).value = .inl (.failed g) := by
  rw [value_judge, value_judge]
  cases haccepts : b.accepts p with
  | false =>
      obtain ⟨e, hskip⟩ := prepare_of_not_accepts haccepts
      rw [hskip s, hskip t]
      exact .inl rfl
  | true =>
      rw [prepare_of_accepts haccepts, prepare_of_accepts haccepts]
      cases hresolve : s.resolve p.text.toList with
      | ok place =>
          have hread : readInput t p = readInput s p := by
            unfold readInput FileStore.read
            rw [hresolve, htree.resolve hresolve]
            simp only [bind, Except.bind, hsame haccepts place hresolve]
          rw [hread]
          exact .inl rfl
      | error f =>
          -- a path that leads nowhere in one store does so in the other, if for another reason
          have ht : ∃ g, t.resolve p.text.toList = .error g := by
            cases hresolve' : t.resolve p.text.toList with
            | error g => exact ⟨g, rfl⟩
            | ok place =>
                rw [htree.symm.resolve hresolve'] at hresolve
                exact nomatch hresolve
          obtain ⟨g, hg⟩ := ht
          have hs : readInput s p = .error (.io p f) := by
            unfold readInput FileStore.read
            rw [hresolve]
            rfl
          have ht : readInput t p = .error (.io p g) := by
            unfold readInput FileStore.read
            rw [hg]
            rfl
          rw [hs, ht]
          exact .inr ⟨_, _, rfl, rfl⟩

/-! ## Two paths -/

theorem outputPath_same_of_eq {b : Batch} {p : Path} (h : b.outputPath p = p) :
    (b.outputPath p).same p = true := by
  rw [h]
  exact beq_self_eq_true _

/-- A path that names the place where the output of a path lands is its own output. -/
theorem outputPath_eq_self_of_meets {b : Batch} (hvalid : b.settings.validate = .ok ())
    {s : FileStore} {p q : Path} {o : Output} {place : Place}
    (hq : (b.judge s q).value = .inr o) (hlands : o.Lands s place)
    (hp : s.resolve p.text.toList = .ok place) : b.outputPath p = p := by
  have hext := plainExtension_effectiveExtension hvalid
  obtain ⟨-, hother, rendering, hprepare, rfl⟩ := judge_eq_inr_iff.mp hq
  obtain ⟨-, text, hread⟩ := accepts_of_prepare hprepare
  obtain ⟨place', bytes, hresolve, hfile⟩ := exists_file_of_readInput hread
  -- the other path was read from a file, so it ends in a name or is its own output
  have hname : Path.IsName q.lastSegment := by
    rcases FileStore.lastSegment_of_resolve hresolve (by simp [hfile]) with ⟨hname, -⟩ | hparent
    · exact hname
    · have hself : b.outputPath q = q := Path.withExtension_of_parent hparent _
      rw [outputPath_same_of_eq hself] at hother
      exact nomatch hother
  have hout := FileStore.target_eq_ok_iff.mp hlands.moved
  obtain ⟨stem, hne, hdot, hstem⟩ := Path.lastSegment_withExtension hname hext hout.2.1
  rcases FileStore.lastSegment_of_resolve hp hlands.not_directory with ⟨-, hlast⟩ | hparent
  · rcases FileStore.lastSegment_of_resolve hout.1 hlands.not_directory with ⟨-, hlast'⟩ | hparent
    · -- both paths end in the name of the place, and that is a stem with the extension
      have hlist : p.lastSegment = (b.outputPath q).lastSegment :=
        String.ofList_inj.mp (Option.some.inj (hlast.symm.trans hlast'))
      exact Path.withExtension_eq_self hext hne hdot (hlist.trans hstem)
    · exact absurd hparent hout.2.1.2.2
  · exact Path.withExtension_of_parent hparent _

end Batch

end FacetQuery

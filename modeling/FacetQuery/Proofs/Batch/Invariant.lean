import FacetQuery.Proofs.Batch.Alone
import FacetQuery.Proofs.Batch.Course

/-!
# `FacetQuery.Proofs.Batch.Invariant` — what holds at every moment of a batch

Throughout a batch every place of the files is explained (`Course.Explained`): a staging file stands there, or
a path has written its output there, or the place is as it was before the batch. Directories do not change.
So a path that is considered late finds what it would have found alone, unless it names a place that another
path has written. In that case it is its own output and comes to nothing that is written; whether it fails or
not is then another path's doing, which `Course.Right` records as `met`.

The invariant needs nothing of the paths: two of them may well be different names of one file. What follows
where they are not is for `FacetQuery.Proofs.Batch.Schedule`.

## Contents
- `Batch.involved` and `FreshNames`, what is asked of the names of staging files.
- `Batch.Due`, `Course.Wrote`, `Course.Met` and `Course.Right`: what a path has to come to.
- `Course.Sound`, `Course.Explained` and the `Course.Invariant` made of them.
- One lemma for each step, and `Course.Steps.invariant` for a whole course.
-/

namespace FacetQuery

/-! ## The paths of a batch and the names of staging files -/

/-- The paths that a batch may read or write. -/
def Batch.involved (b : Batch) (paths : List Path) : List Path := paths ++ paths.map b.outputPath

/-- Staging files have names that the system makes up: in every directory one is left, and no path of the
    batch names a place that has such a name. -/
structure FreshNames (fresh : Place → Prop) (b : Batch) (store : FileStore) (paths : List Path) :
    Prop where
  left : ∀ (s : FileStore) (dir : Place), ∃ name,
    fresh (dir ++ [name]) ∧ s.get? (dir ++ [name]) = none
  unnamed : ∀ p ∈ b.involved paths, ∀ place, store.resolve p.text.toList = .ok place → ¬ fresh place

/-- A place with one of the names that staging files are given here. -/
def StagingPlace (place : Place) : Prop := ∃ n, place.getLast? = some (FileStore.stagingName n)

theorem stagingPlace_freeName (s : FileStore) (dir : Place) (p : Path) :
    StagingPlace (dir ++ [s.freeName dir p]) := by
  unfold StagingPlace FileStore.freeName
  rw [List.getLast?_concat]
  split
  · next n _ => exact ⟨n, rfl⟩
  · exact ⟨0, rfl⟩

/-- These names will do, if no path of the batch names such a place. -/
theorem freshNames_stagingPlace {b : Batch} {store : FileStore} {paths : List Path}
    (h : ∀ p ∈ b.involved paths, ∀ place, store.resolve p.text.toList = .ok place →
      ¬ StagingPlace place) : FreshNames StagingPlace b store paths :=
  ⟨fun s dir => ⟨s.freeName dir ⟨""⟩, stagingPlace_freeName s dir ⟨""⟩,
    (s.freeName_free dir ⟨""⟩).1⟩, h⟩

section Names

variable {fresh : Place → Prop} {b : Batch} {store : FileStore} {paths : List Path} {i : Nat}
  {p : Path} {place : Place}

theorem FreshNames.input (h : FreshNames fresh b store paths) (hp : paths[i]? = some p)
    (hresolve : store.resolve p.text.toList = .ok place) : ¬ fresh place :=
  h.unnamed p (List.mem_append_left _ (List.mem_of_getElem? hp)) place hresolve

theorem FreshNames.output (h : FreshNames fresh b store paths) (hp : paths[i]? = some p)
    (hresolve : store.resolve (b.outputPath p).text.toList = .ok place) : ¬ fresh place :=
  h.unnamed _ (List.mem_append_right _ (List.mem_map.mpr ⟨p, List.mem_of_getElem? hp, rfl⟩)) place
    hresolve

end Names

/-! ## What a path has to come to -/

/-- In the files before the batch the path with this index has this output to write: no earlier path claims
    its place. -/
def Batch.Due (b : Batch) (store : FileStore) (paths : List Path) (i : Nat) (o : Output) : Prop :=
  ∃ p, paths[i]? = some p ∧ b.isClaimed (paths.take i) p = false ∧ (b.judge store p).value = .inr o

section Due

variable {b : Batch} {store : FileStore} {paths : List Path} {i : Nat} {p : Path} {o o' : Output}

/-- It is the path with this index that has the output. -/
theorem Batch.Due.judged (h : b.Due store paths i o) (hp : paths[i]? = some p) :
    b.isClaimed (paths.take i) p = false ∧ (b.judge store p).value = .inr o := by
  obtain ⟨q, hq, hclaim, hjudge⟩ := h
  cases hp.symm.trans hq
  exact ⟨hclaim, hjudge⟩

theorem Batch.Due.unique (h : b.Due store paths i o) (h' : b.Due store paths i o') : o = o' := by
  obtain ⟨p, hp, -, hjudge⟩ := h
  exact Sum.inr.inj (hjudge.symm.trans (h'.judged hp).2)

/-- The output of a path is where its extension says. -/
theorem Batch.Due.path_eq (h : b.Due store paths i o) (hp : paths[i]? = some p) :
    o.path = b.outputPath p := by
  obtain ⟨-, -, rendering, -, rfl⟩ := Batch.judge_eq_inr_iff.mp (h.judged hp).2
  rfl

end Due

/-- To give up a staging file that could have been moved is a refusal of the system. -/
theorem Output.refused_of_target (o : Output) {s : FileStore} {staging place : Place} {bytes : ByteArray}
    (hstaged : s.get? staging = some (.file bytes)) (htarget : s.target o.path o.overwrite = .ok place)
    (f : FileFault) : o.Refused s (.filled staging) (.ended (o.verdict (.error f))) := by
  obtain ⟨g, hg⟩ := o.verdict_error f
  show o.verdict (.error f) ≠ o.verdict (s.moveInto staging o.path o.overwrite).1
  rw [FileStore.moveInto_of_target hstaged htarget, hg]
  exact nofun

/-- The output has been moved into its place. -/
def Phase.Done (o : Output) : Phase → Prop
  | .writing o' (.ended (.ok _)) => o' = o
  | .settled (.written path) => path = o.path
  | _ => False

/-- What stands under a staging name for this path, and where. -/
def Phase.staged? : Phase → Option (Place × ByteArray)
  | .writing _ (.created staging) => some (staging, .empty)
  | .writing o (.filled staging) => some (staging, o.contents.toUTF8)
  | _ => none

/-- What is still staged is not in its place. -/
theorem Phase.not_done_of_staged {x : Phase} {place : Place} {bytes : ByteArray}
    (h : x.staged? = some (place, bytes)) (o : Output) : ¬ x.Done o := by
  cases x with
  | writing o' w =>
      cases w with
      | created _ | filled _ => exact id
      | ready | ended _ => cases h
  | waiting | held | settled _ => cases h

namespace Course

section Definitions

variable (b : Batch) (struck : Nat → Prop) (paths : List Path) (store : FileStore) (c : Course)

/-- The path with this index has written its output, which lands at the place. -/
structure Wrote (i : Nat) (o : Output) (place : Place) : Prop where
  due : b.Due store paths i o
  lands : o.Lands store place
  done : (c.phase i).Done o

/-- The path names, as itself or as its output, a place that another path has written. -/
def Met (i : Nat) (p : Path) : Prop :=
  b.accepts p = true ∧ ∃ j o place, j ≠ i ∧ c.Wrote b paths store j o place ∧
    (store.resolve p.text.toList = .ok place ∨
      store.resolve (b.outputPath p).text.toList = .ok place)

/-- An outcome that the path with this index may get. -/
inductive Right (i : Nat) (p : Path) : Outcome → Prop
  /-- An earlier path claims the output. -/
  | claimed (h : b.isClaimed (paths.take i) p = true) : Right i p (.skipped .claimed)
  /-- It is the one that the path gets alone. -/
  | alone {outcome} (h : b.isClaimed (paths.take i) p = false)
      (hagrees : outcome.Agrees (b.convert store p).value.1) : Right i p outcome
  /-- The system has refused to write the output. -/
  | struck {f} (h : b.isClaimed (paths.take i) p = false) (hstruck : struck i) : Right i p (.failed f)
  /-- Another path has been at work where this one was. -/
  | met {outcome} (h : b.isClaimed (paths.take i) p = false) (hmet : c.Met b paths store i p)
      (hout : ∀ path, outcome ≠ .written path) : Right i p outcome

/-- A phase that the path with this index may be in. -/
inductive Sound (i : Nat) (p : Path) : Phase → Prop
  | waiting : Sound i p .waiting
  | held : Sound i p .held
  | ready {o} (hdue : b.Due store paths i o) : Sound i p (.writing o .ready)
  | created {o staging} (hdue : b.Due store paths i o)
      (hdir : ∃ dir, store.directoryOf o.path = .ok dir) : Sound i p (.writing o (.created staging))
  | filled {o staging} (hdue : b.Due store paths i o)
      (hdir : ∃ dir, store.directoryOf o.path = .ok dir) : Sound i p (.writing o (.filled staging))
  | ended {o r} (hdue : b.Due store paths i o)
      (hright : c.Right b struck paths store i p (Batch.conclude p o r).value) :
      Sound i p (.writing o (.ended r))
  | settled {outcome} (hright : c.Right b struck paths store i p outcome) :
      Sound i p (.settled outcome)

/-- Why a place holds what it holds. -/
inductive Explained (place : Place) : Prop
  /-- It is that of a staging file. -/
  | staged (i : Nat) (bytes : ByteArray) (h : (c.phase i).staged? = some (place, bytes))
  /-- A path has written its output there. -/
  | wrote (i : Nat) (o : Output) (h : c.Wrote b paths store i o place)
      (hget : c.store.get? place = some (.file o.contents.toUTF8))
  /-- No path has, and it is as it was before the batch. -/
  | kept (h : ∀ i o, ¬ c.Wrote b paths store i o place)
      (hget : c.store.get? place = store.get? place)

/-- What holds at every moment of a batch that began with the files in `store`. -/
structure Invariant (fresh : Place → Prop) : Prop where
  tree : FileStore.SameTree store c.store
  sound : ∀ i p, paths[i]? = some p → c.Sound b struck paths store i p (c.phase i)
  staged : ∀ i place bytes, (c.phase i).staged? = some (place, bytes) →
    fresh place ∧ store.get? place = none ∧ c.store.get? place = some (.file bytes)
  apart : ∀ i j place bytes bytes', (c.phase i).staged? = some (place, bytes) →
    (c.phase j).staged? = some (place, bytes') → i = j
  explained : ∀ place, c.Explained b paths store place

end Definitions

/-! ## What lasts -/

section Lasting

variable {b : Batch} {fresh : Place → Prop} {struck : Nat → Prop} {paths : List Path}
  {store : FileStore} {c d : Course} {i : Nat} {p : Path}

theorem Wrote.not_fresh (hnames : FreshNames fresh b store paths) {o : Output} {place : Place}
    (h : c.Wrote b paths store i o place) : ¬ fresh place := by
  obtain ⟨p, hp, hclaim, hjudge⟩ := h.due
  refine hnames.output hp ?_
  rw [← h.due.path_eq hp]
  exact h.lands.resolve

theorem Met.mono (hwrote : ∀ j o place, c.Wrote b paths store j o place →
      d.Wrote b paths store j o place) (h : c.Met b paths store i p) : d.Met b paths store i p := by
  obtain ⟨haccepts, j, o, place, hne, hw, hnamed⟩ := h
  exact ⟨haccepts, j, o, place, hne, hwrote j o place hw, hnamed⟩

theorem Right.mono (hwrote : ∀ j o place, c.Wrote b paths store j o place →
      d.Wrote b paths store j o place) {outcome : Outcome}
    (h : c.Right b struck paths store i p outcome) : d.Right b struck paths store i p outcome := by
  cases h with
  | claimed h => exact .claimed h
  | alone h hagrees => exact .alone h hagrees
  | struck h hstruck => exact .struck h hstruck
  | met h hmet hout => exact .met h (hmet.mono hwrote) hout

/-- What was sound stays so when more has been written. -/
theorem Sound.mono (hwrote : ∀ j o place, c.Wrote b paths store j o place →
      d.Wrote b paths store j o place) {x : Phase} (h : c.Sound b struck paths store i p x) :
    d.Sound b struck paths store i p x := by
  cases h with
  | waiting => exact .waiting
  | held => exact .held
  | ready hdue => exact .ready hdue
  | created hdue hdir => exact .created hdue hdir
  | filled hdue hdir => exact .filled hdue hdir
  | ended hdue hright => exact .ended hdue (hright.mono hwrote)
  | settled hright => exact .settled (hright.mono hwrote)

/-- A place that a path of the batch names was written by a path, or is as it was. -/
theorem Invariant.wrote_or_kept {place : Place} (h : c.Invariant b struck paths store fresh)
    (hplace : ¬ fresh place) :
    (∃ j o, c.Wrote b paths store j o place ∧
        c.store.get? place = some (.file o.contents.toUTF8)) ∨
      ((∀ j o, ¬ c.Wrote b paths store j o place) ∧ c.store.get? place = store.get? place) := by
  cases h.explained place with
  | staged j bytes hstaged => exact absurd (h.staged j place bytes hstaged).1 hplace
  | wrote j o hw hget => exact .inl ⟨j, o, hw, hget⟩
  | kept hnone hget => exact .inr ⟨hnone, hget⟩

/-- Two staging files stand at two places. -/
theorem Invariant.staged_ne (h : c.Invariant b struck paths store fresh) {j : Nat} (hne : j ≠ i)
    {place staging : Place} {bytes bytes' : ByteArray}
    (hj : (c.phase j).staged? = some (place, bytes))
    (hi : (c.phase i).staged? = some (staging, bytes')) : place ≠ staging := by
  rintro rfl
  exact hne (h.apart j i place bytes bytes' hj hi)

/-- A path has one staging file at most. -/
theorem staged_ne_of_ne {place staging : Place} {bytes : ByteArray}
    (hstaged : (c.phase i).staged? = some (staging, bytes)) (hne : place ≠ staging)
    (bytes' : ByteArray) : (c.phase i).staged? ≠ some (place, bytes') := by
  intro h
  rw [hstaged] at h
  cases h
  exact hne rfl

/-- Before the batch has begun everything is as it was. -/
theorem invariant_start (b : Batch) (fresh : Place → Prop) (struck : Nat → Prop)
    (paths : List Path) (store : FileStore) :
    (start store).Invariant b struck paths store fresh where
  tree := .refl store
  sound := fun _ _ _ => .waiting
  staged := fun _ _ _ h => nomatch h
  apart := fun _ _ _ _ _ h => nomatch h
  explained := fun _ => .kept (fun _ _ h => h.done) rfl

end Lasting

/-! ## One path in another phase -/

section Update

variable {b : Batch} {fresh : Place → Prop} {struck : Nat → Prop} {paths : List Path}
  {store : FileStore} {c : Course} {i : Nat} {p : Path} {t : FileStore} {x : Phase}

/-- What other paths have written is the same. -/
theorem wrote_set_of_ne {j : Nat} {o : Output} {place : Place} (hne : j ≠ i) :
    ({ c.set i x with store := t } : Course).Wrote b paths store j o place ↔
      c.Wrote b paths store j o place := by
  have hphase : ({ c.set i x with store := t } : Course).phase j = c.phase j :=
    c.phase_set_of_ne hne x
  exact ⟨fun h => ⟨h.due, h.lands, hphase ▸ h.done⟩, fun h => ⟨h.due, h.lands, hphase.symm ▸ h.done⟩⟩

theorem Wrote.done_self {o : Output} {place : Place}
    (h : ({ c.set i x with store := t } : Course).Wrote b paths store i o place) : x.Done o := by
  have hdone := h.done
  rwa [show ({ c.set i x with store := t } : Course).phase i = x from c.phase_set_self i x] at hdone

/-- What was written stays so if the path has not taken its own output back. -/
theorem Wrote.set (hdone : ∀ o, b.Due store paths i o → (c.phase i).Done o → x.Done o) :
    ∀ j o place, c.Wrote b paths store j o place →
      ({ c.set i x with store := t } : Course).Wrote b paths store j o place := by
  intro j o place h
  by_cases hne : j = i
  · subst hne
    refine ⟨h.due, h.lands, ?_⟩
    rw [show ({ c.set j x with store := t } : Course).phase j = x from c.phase_set_self j x]
    exact hdone o h.due h.done
  · exact (wrote_set_of_ne hne).mpr h

/-- A place that the path does not touch is explained as before. -/
theorem Explained.set {place : Place} (h : c.Explained b paths store place)
    (hget : t.get? place = c.store.get? place)
    (hstaged : ∀ bytes, (c.phase i).staged? ≠ some (place, bytes))
    (hdone : ∀ o, b.Due store paths i o → (c.phase i).Done o → x.Done o)
    (hnew : ∀ o, b.Due store paths i o → o.Lands store place → x.Done o → (c.phase i).Done o) :
    ({ c.set i x with store := t } : Course).Explained b paths store place := by
  cases h with
  | staged j bytes h =>
      have hne : j ≠ i := fun e => hstaged bytes (e ▸ h)
      exact .staged j bytes ((congrArg Phase.staged? (c.phase_set_of_ne hne x)).trans h)
  | wrote j o h hstore => exact .wrote j o (Wrote.set hdone j o place h) (hget.trans hstore)
  | kept h hstore =>
      refine .kept (fun j o hw => ?_) (hget.trans hstore)
      by_cases hne : j = i
      · subst hne
        exact h j o ⟨hw.due, hw.lands, hnew o hw.due hw.lands hw.done_self⟩
      · exact h j o ((wrote_set_of_ne hne).mp hw)

/-- One path gets into another phase: what has to be seen to. -/
theorem Invariant.update (h : c.Invariant b struck paths store fresh) (hp : paths[i]? = some p)
    (htree : FileStore.SameTree c.store t)
    (hdone : ∀ o, b.Due store paths i o → (c.phase i).Done o → x.Done o)
    (hsound : c.Sound b struck paths store i p x)
    (hown : ∀ place bytes, x.staged? = some (place, bytes) →
      fresh place ∧ store.get? place = none ∧ t.get? place = some (.file bytes) ∧
        ∀ j bytes', j ≠ i → (c.phase j).staged? ≠ some (place, bytes'))
    (hothers : ∀ j place bytes, j ≠ i → (c.phase j).staged? = some (place, bytes) →
      t.get? place = c.store.get? place)
    (hexplained : ∀ place,
      ({ c.set i x with store := t } : Course).Explained b paths store place) :
    ({ c.set i x with store := t } : Course).Invariant b struck paths store fresh := by
  have hmono := Wrote.set (t := t) hdone
  have hself : ({ c.set i x with store := t } : Course).phase i = x := c.phase_set_self i x
  have hother : ∀ j, j ≠ i → ({ c.set i x with store := t } : Course).phase j = c.phase j :=
    fun j hne => c.phase_set_of_ne hne x
  refine ⟨h.tree.trans htree, fun j q hq => ?_, fun j place bytes hj => ?_,
    fun j k place bytes bytes' hj hk => ?_, hexplained⟩
  · by_cases hne : j = i
    · subst hne
      cases hp.symm.trans hq
      rw [hself]
      exact hsound.mono hmono
    · rw [hother j hne]
      exact (h.sound j q hq).mono hmono
  · by_cases hne : j = i
    · subst hne
      rw [hself] at hj
      obtain ⟨hfresh, hnone, hget, -⟩ := hown place bytes hj
      exact ⟨hfresh, hnone, hget⟩
    · rw [hother j hne] at hj
      obtain ⟨hfresh, hnone, hget⟩ := h.staged j place bytes hj
      exact ⟨hfresh, hnone, (hothers j place bytes hne hj).trans hget⟩
  · -- of two staging files at one place, one would be the path's own and new there
    by_cases hji : j = i <;> by_cases hki : k = i
    · exact hji.trans hki.symm
    · subst hji
      rw [hself] at hj
      rw [hother k hki] at hk
      exact absurd hk ((hown place bytes hj).2.2.2 k bytes' hki)
    · subst hki
      rw [hself] at hk
      rw [hother j hji] at hj
      exact absurd hj ((hown place bytes' hk).2.2.2 j bytes hji)
    · rw [hother j hji] at hj
      rw [hother k hki] at hk
      exact h.apart j k place bytes bytes' hj hk

/-- One path gets into another phase, without a change of the files and without a staging file. -/
theorem Invariant.set (h : c.Invariant b struck paths store fresh) (hp : paths[i]? = some p)
    (hold : (c.phase i).staged? = none) (hnew : x.staged? = none)
    (hdone : ∀ o, b.Due store paths i o → ((c.phase i).Done o ↔ x.Done o))
    (hsound : c.Sound b struck paths store i p x) :
    (c.set i x).Invariant b struck paths store fresh := by
  refine h.update hp (.refl c.store) (fun o ho => (hdone o ho).mp) hsound (fun place bytes hx => ?_)
    (fun _ _ _ _ _ => rfl) fun place => ?_
  · rw [hnew] at hx
    exact nomatch hx
  · refine (h.explained place).set rfl (fun bytes hi => ?_) (fun o ho => (hdone o ho).mp)
      fun o ho _ => (hdone o ho).mpr
    rw [hold] at hi
    exact nomatch hi

end Update

/-! ## The steps -/

section Steps

variable {b : Batch} {fresh : Place → Prop} {struck : Nat → Prop} {paths : List Path}
  {store : FileStore} {c d : Course} {i : Nat} {p : Path}

/-- What a path comes to at any moment, it may come to: it is judged as it would be alone, or it names a
    place that another path has written, and then it has nothing to write. -/
theorem Invariant.sound_after (h : c.Invariant b struck paths store fresh)
    (hvalid : b.settings.validate = .ok ()) (hnames : FreshNames fresh b store paths)
    (hp : paths[i]? = some p) (hphase : c.phase i = .held) :
    c.Sound b struck paths store i p
      (.after (b.consider false c.store (paths.take i) p).value) := by
  cases hclaim : b.isClaimed (paths.take i) p with
  | true =>
      rw [Batch.value_consider_of_claimed hclaim]
      exact .settled (.claimed hclaim)
  | false =>
      rw [Batch.value_consider hclaim]
      by_cases hsame : b.accepts p = true → ∀ place, store.resolve p.text.toList = .ok place →
          c.store.get? place = store.get? place
      · rcases Batch.judge_agrees h.tree hsame with heq | ⟨f, g, hf, hg⟩
        · rw [← heq]
          cases hjudge : (b.judge store p).value with
          | inl outcome =>
              refine .settled (.alone hclaim ?_)
              rw [Batch.convert_of_inl hjudge]
              exact .refl outcome
          | inr o => exact .ready ⟨p, hp, hclaim, hjudge⟩
        · rw [hg]
          refine .settled (.alone hclaim ?_)
          rw [Batch.convert_of_inl hf]
          exact Outcome.agrees_failed g f
      · -- another path has written where this one reads
        have hmeets : ∃ place, b.accepts p = true ∧ store.resolve p.text.toList = .ok place ∧
            c.store.get? place ≠ store.get? place := by
          apply Classical.byContradiction
          intro hnone
          refine hsame fun haccepts place hresolve => Classical.byContradiction fun hne => ?_
          exact hnone ⟨place, haccepts, hresolve, hne⟩
        obtain ⟨place, haccepts, hresolve, hne⟩ := hmeets
        rcases h.wrote_or_kept (hnames.input hp hresolve) with ⟨j, o, hw, -⟩ | ⟨-, hkept⟩
        · have hji : j ≠ i := by
            rintro rfl
            have hdone := hw.done
            rw [hphase] at hdone
            exact hdone
          have hmet : c.Met b paths store i p := ⟨haccepts, j, o, place, hji, hw, .inl hresolve⟩
          obtain ⟨q, -, -, hjudge⟩ := hw.due
          have hself := Batch.outputPath_eq_self_of_meets hvalid hjudge hw.lands hresolve
          cases hnow : (b.judge c.store p).value with
          | inl outcome =>
              refine .settled (.met hclaim hmet fun path hout => ?_)
              exact Batch.judge_ne_written b c.store p path (hout ▸ hnow)
          | inr o' =>
              have hother := (Batch.judge_eq_inr_iff.mp hnow).2.1
              rw [Batch.outputPath_same_of_eq hself] at hother
              exact nomatch hother
        · exact absurd hkept hne

/-- What was considered is not staged, nor is it written. -/
theorem after_consider (b : Batch) (s : FileStore) (earlier : List Path) (p : Path) :
    (Phase.after (b.consider false s earlier p).value).staged? = none ∧
      ∀ o, ¬ (Phase.after (b.consider false s earlier p).value).Done o := by
  cases hvalue : (b.consider false s earlier p).value with
  | inr o => exact ⟨rfl, fun _ h => h⟩
  | inl outcome =>
      refine ⟨rfl, fun o hdone => ?_⟩
      cases outcome with
      | written path =>
          cases hclaim : b.isClaimed earlier p with
          | true =>
              rw [Batch.value_consider_of_claimed hclaim] at hvalue
              exact nomatch hvalue
          | false =>
              rw [Batch.value_consider hclaim] at hvalue
              exact Batch.judge_ne_written b s p path hvalue
      | collected _ | empty | failed _ | skipped _ | cancelled => exact hdone

/-- The outcome is failure whether the output lands nowhere, or the system has refused to write it. -/
theorem Right.of_refusal {o : Output} (hdue : b.Due store paths i o) (hp : paths[i]? = some p)
    (f : Fault) (h : struck i ∨ ∀ place, ¬ o.Lands store place) :
    c.Right b struck paths store i p (.failed f) := by
  obtain ⟨hclaim, hjudge⟩ := hdue.judged hp
  rcases h with hstruck | hlands
  · exact .struck hclaim hstruck
  · obtain ⟨g, hg⟩ := Batch.convert_of_not_lands hjudge hlands
    refine .alone hclaim ?_
    rw [hg]
    exact Outcome.agrees_failed f g

/-- A place that a path has written is not that of a staging file. -/
theorem Explained.of_staging (hnames : FreshNames fresh b store paths) {staging : Place}
    (hfresh : fresh staging) (hget : c.store.get? staging = store.get? staging) :
    c.Explained b paths store staging :=
  .kept (fun _ _ hw => hw.not_fresh hnames hfresh) hget

/-- A staging file is made. -/
theorem Invariant.create (h : c.Invariant b struck paths store fresh) (hp : paths[i]? = some p)
    {o : Output} (hphase : c.phase i = .writing o .ready) {dir : Place} {name : String}
    (hdir : c.store.directoryOf o.path = .ok dir) (hfresh : fresh (dir ++ [name]))
    (hfree : c.store.get? (dir ++ [name]) = none) :
    ({ c.set i (.writing o (.created (dir ++ [name]))) with
        store := c.store.insert (dir ++ [name]) (.file .empty) } : Course).Invariant
      b struck paths store fresh := by
  have hget := c.store.get?_insert (dir ++ [name]) (e := .file .empty) (h := by simp)
  have hsound := h.sound i p hp
  rw [hphase] at hsound
  have hdue : b.Due store paths i o := by cases hsound; assumption
  -- nothing stands there now, and nothing that stood there before can be gone
  have hbefore : store.get? (dir ++ [name]) = none := by
    cases h.explained (dir ++ [name]) with
    | staged j bytes hj => exact (h.staged j _ bytes hj).2.1
    | wrote j o' hw hfile => exact nomatch hfree.symm.trans hfile
    | kept _ hkept => exact hkept.symm.trans hfree
  have hothers : ∀ j bytes, (c.phase j).staged? ≠ some (dir ++ [name], bytes) := by
    intro j bytes hj
    exact nomatch hfree.symm.trans (h.staged j _ bytes hj).2.2
  refine h.update hp (FileStore.sameTree_insert _ (by simp [hfree])) (fun o' _ hdone => ?_)
    (.created hdue ⟨dir, h.tree.symm.directoryOf hdir⟩) (fun place bytes hstaged => ?_)
    (fun j place bytes _ hj => ?_) fun place => ?_
  · rw [hphase] at hdone
    exact hdone
  · cases hstaged
    exact ⟨hfresh, hbefore, by rw [hget, if_pos rfl], fun j bytes' _ => hothers j bytes'⟩
  · rw [hget, if_neg]
    rintro rfl
    exact hothers j bytes hj
  · by_cases hplace : place = dir ++ [name]
    · subst hplace
      exact .staged i .empty (congrArg Phase.staged? (c.phase_set_self i _))
    · refine (h.explained place).set (by rw [hget, if_neg hplace]) (fun bytes hi => ?_)
        (fun o' _ hdone => ?_) fun o' _ _ hdone => absurd hdone id
      · rw [hphase] at hi
        exact nomatch hi
      · rw [hphase] at hdone
        exact hdone

/-- A staging file is filled. -/
theorem Invariant.fill (h : c.Invariant b struck paths store fresh) (hp : paths[i]? = some p)
    {o : Output} {staging : Place} (hphase : c.phase i = .writing o (.created staging)) :
    ({ c.set i (.writing o (.filled staging)) with
        store := c.store.insert staging (.file o.contents.toUTF8) } : Course).Invariant
      b struck paths store fresh := by
  have hstaged : (c.phase i).staged? = some (staging, .empty) := by rw [hphase]; rfl
  obtain ⟨hfresh, hbefore, hnow⟩ := h.staged i staging .empty hstaged
  have hfile : c.store.get? staging ≠ some .directory := by simp [hnow]
  have hget := fun q => c.store.get?_insert staging q (.file o.contents.toUTF8)
    (FileStore.ne_nil_of_get?_ne hfile)
  have hsound := h.sound i p hp
  rw [hphase] at hsound
  have hold : ∀ o', ¬ (c.phase i).Done o' := Phase.not_done_of_staged hstaged
  refine h.update hp (FileStore.sameTree_insert _ hfile) (fun o' _ hdone => absurd hdone (hold o')) ?_
    (fun place bytes hx => ?_) (fun j place bytes hne hj => ?_) fun place => ?_
  · cases hsound with
    | created hdue hdir => exact .filled hdue hdir
  · cases hx
    refine ⟨hfresh, hbefore, by rw [hget, if_pos rfl], fun j bytes' hne hj => ?_⟩
    exact h.staged_ne hne hj hstaged rfl
  · rw [hget, if_neg (h.staged_ne hne hj hstaged)]
  · by_cases hplace : place = staging
    · subst hplace
      exact .staged i o.contents.toUTF8 (congrArg Phase.staged? (c.phase_set_self i _))
    · exact (h.explained place).set (by rw [hget, if_neg hplace]) (staged_ne_of_ne hstaged hplace)
        (fun o' _ hdone => absurd hdone (hold o')) fun o' _ _ hdone => absurd hdone id

/-- A staging file is given up. -/
theorem Invariant.unstage (h : c.Invariant b struck paths store fresh)
    (hnames : FreshNames fresh b store paths) (hp : paths[i]? = some p) {o : Output} {w : Writing}
    {staging : Place} {bytes : ByteArray} (hphase : c.phase i = .writing o w)
    (hstaged : (Phase.writing o w).staged? = some (staging, bytes)) {f : Fault}
    (hdue : b.Due store paths i o) (hright : c.Right b struck paths store i p (.failed f)) :
    ({ c.set i (.writing o (.ended (.error f))) with store := c.store.erase staging } : Course).Invariant
      b struck paths store fresh := by
  rw [← hphase] at hstaged
  obtain ⟨hfresh, hbefore, hnow⟩ := h.staged i staging bytes hstaged
  have hfile : c.store.get? staging ≠ some .directory := by simp [hnow]
  have hget := fun q => c.store.get?_erase staging q (FileStore.ne_nil_of_get?_ne hfile)
  have hold : ∀ o', ¬ (c.phase i).Done o' := Phase.not_done_of_staged hstaged
  refine h.update hp (FileStore.sameTree_erase hfile) (fun o' _ hdone => absurd hdone (hold o'))
    (.ended hdue hright) (fun place bytes' hx => nomatch hx) (fun j place bytes' hne hj => ?_)
    fun place => ?_
  · rw [hget, if_neg (h.staged_ne hne hj hstaged)]
  · by_cases hplace : place = staging
    · subst hplace
      exact .of_staging hnames hfresh (by rw [hget, if_pos rfl, hbefore])
    · exact (h.explained place).set (by rw [hget, if_neg hplace]) (staged_ne_of_ne hstaged hplace)
        (fun o' _ hdone => absurd hdone (hold o')) fun o' _ _ hdone => absurd hdone id

/-- Where a staging file can be moved at some moment, its output lands: nothing that stood in its way before
    the batch is gone. -/
theorem Invariant.lands_of_target (h : c.Invariant b struck paths store fresh)
    (hnames : FreshNames fresh b store paths) (hp : paths[i]? = some p) {o : Output} {place : Place}
    (hdue : b.Due store paths i o) (hdir : ∃ dir, store.directoryOf o.path = .ok dir)
    (htarget : c.store.target o.path o.overwrite = .ok place) : o.Lands store place := by
  have hresolve := h.tree.symm.resolve (FileStore.target_eq_ok_iff.mp htarget).1
  rw [hdue.path_eq hp] at hresolve
  refine ⟨hdir, h.tree.symm.target htarget fun ho => ?_⟩
  have hfree := (FileStore.get?_of_target htarget).2 ho
  -- if nothing may be replaced then nothing stands there, and no other path has written there
  rcases h.wrote_or_kept (hnames.output hp hresolve) with ⟨j, o', -, hfile⟩ | ⟨-, hkept⟩
  · exact nomatch hfree.symm.trans hfile
  · exact hkept.symm.trans hfree

/-- Where a staging file cannot be moved at some moment, its output lands nowhere, or another path has
    written to its place. -/
theorem Invariant.met_of_target (h : c.Invariant b struck paths store fresh)
    (hnames : FreshNames fresh b store paths) (hp : paths[i]? = some p) {o : Output}
    (hdue : b.Due store paths i o) (hold : ∀ o', ¬ (c.phase i).Done o') {f : FileFault}
    (htarget : c.store.target o.path o.overwrite = .error f) :
    (∀ place, ¬ o.Lands store place) ∨ c.Met b paths store i p := by
  by_cases hlands : ∃ place, o.Lands store place
  · obtain ⟨place, hplace⟩ := hlands
    have hresolve : store.resolve (b.outputPath p).text.toList = .ok place :=
      hdue.path_eq hp ▸ hplace.resolve
    rcases h.wrote_or_kept (hnames.output hp hresolve) with ⟨j, o', hw, -⟩ | ⟨-, hkept⟩
    · have hji : j ≠ i := by
        rintro rfl
        exact hold o' hw.done
      exact .inr ⟨Batch.accepts_of_judge (hdue.judged hp).2, j, o', place, hji, hw, .inr hresolve⟩
    · have hok := h.tree.target hplace.moved fun ho =>
        hkept.trans ((FileStore.get?_of_target hplace.moved).2 ho)
      exact nomatch htarget.symm.trans hok
  · exact .inl (not_exists.mp hlands)

/-- A staging file is given up, because it cannot be moved or because the system refuses to. -/
theorem Invariant.giveUp (h : c.Invariant b struck paths store fresh)
    (hnames : FreshNames fresh b store paths) (hp : paths[i]? = some p) {o : Output}
    {staging : Place} (hphase : c.phase i = .writing o (.filled staging)) (f : FileFault)
    (hrefused : o.Refused c.store (.filled staging) (.ended (o.verdict (.error f))) → struck i) :
    ({ c.set i (.writing o (.ended (o.verdict (.error f)))) with store := c.store.erase staging } :
      Course).Invariant b struck paths store fresh := by
  have hstaged : (c.phase i).staged? = some (staging, o.contents.toUTF8) := by rw [hphase]; rfl
  have hnow := (h.staged i staging _ hstaged).2.2
  have hsound := h.sound i p hp
  rw [hphase] at hsound
  cases hsound with
  | filled hdue _ =>
      obtain ⟨g, hg⟩ := o.verdict_error f
      have hright : c.Right b struck paths store i p (Batch.conclude p o (.error g)).value := by
        cases htarget : c.store.target o.path o.overwrite with
        | ok place => exact .of_refusal hdue hp g (.inl (hrefused (o.refused_of_target hnow htarget f)))
        | error f' =>
            -- no refusal: it could not be moved as the files were
            rcases h.met_of_target hnames hp hdue (Phase.not_done_of_staged hstaged) htarget with
              hlands | hmet
            · exact .of_refusal hdue hp g (.inr hlands)
            · refine .met (hdue.judged hp).1 hmet fun path hout => ?_
              cases hout
      rw [hg]
      exact h.unstage hnames hp hphase rfl hdue hright

/-- A staging file is moved into the place of its output. -/
theorem Invariant.land (h : c.Invariant b struck paths store fresh)
    (hnames : FreshNames fresh b store paths) (hp : paths[i]? = some p) {o : Output}
    {staging place : Place} (hphase : c.phase i = .writing o (.filled staging))
    (hdue : b.Due store paths i o) (hlands : o.Lands store place)
    (htree : FileStore.SameTree c.store
      ((c.store.erase staging).insert place (.file o.contents.toUTF8))) :
    ({ c.set i (.writing o (.ended (.ok ()))) with
        store := (c.store.erase staging).insert place (.file o.contents.toUTF8) } : Course).Invariant
      b struck paths store fresh := by
  have hstaged : (c.phase i).staged? = some (staging, o.contents.toUTF8) := by rw [hphase]; rfl
  obtain ⟨hfresh, hbefore, hnow⟩ := h.staged i staging _ hstaged
  have hfile : c.store.get? staging ≠ some .directory := by simp [hnow]
  have hold : ∀ o', ¬ (c.phase i).Done o' := Phase.not_done_of_staged hstaged
  -- the goal has no staging name, so what others have staged is not touched
  have hplace : ¬ fresh place := by
    refine hnames.output hp ?_
    rw [← hdue.path_eq hp]
    exact hlands.resolve
  have hget : ∀ q, ((c.store.erase staging).insert place (.file o.contents.toUTF8)).get? q =
      if q = place then some (.file o.contents.toUTF8)
      else if q = staging then none else c.store.get? q := by
    intro q
    rw [FileStore.get?_insert _ _ _ _ (FileStore.ne_nil_of_get?_ne hlands.not_directory),
      FileStore.get?_erase _ _ _ (FileStore.ne_nil_of_get?_ne hfile)]
  have hright : c.Right b struck paths store i p (.written o.path) := by
    obtain ⟨hclaim, hjudge⟩ := hdue.judged hp
    refine .alone hclaim ?_
    rw [Batch.convert_of_lands hjudge hlands]
    exact .refl _
  refine h.update hp htree (fun o' _ hdone => absurd hdone (hold o')) (.ended hdue hright)
    (fun q bytes hx => nomatch hx) (fun j q bytes hji hj => ?_) fun q => ?_
  · have hq : q ≠ place := by
      rintro rfl
      exact hplace (h.staged j q bytes hj).1
    rw [hget, if_neg hq, if_neg (h.staged_ne hji hj hstaged)]
  · by_cases hq : q = place
    · subst hq
      refine .wrote i o ⟨hdue, hlands, ?_⟩ (by rw [hget, if_pos rfl])
      have hself : (c.set i (.writing o (.ended (.ok ())))).phase i = .writing o (.ended (.ok ())) :=
        c.phase_set_self i _
      show ((c.set i (.writing o (.ended (.ok ())))).phase i).Done o
      rw [hself]
      rfl
    · by_cases hqs : q = staging
      · subst hqs
        exact .of_staging hnames hfresh (by rw [hget, if_neg hq, if_pos rfl, hbefore])
      · refine (h.explained q).set (by rw [hget, if_neg hq, if_neg hqs])
          (staged_ne_of_ne hstaged hqs) (fun o' _ hdone => absurd hdone (hold o'))
          fun o' _ hlands' hdone => ?_
        -- the only place that the path has newly written to is the one where its output lands
        cases (show o = o' from hdone)
        exact absurd (hlands.unique hlands') hq

/-- A staging file is moved, or cannot be and is given up. -/
theorem Invariant.move (h : c.Invariant b struck paths store fresh)
    (hnames : FreshNames fresh b store paths) (hp : paths[i]? = some p) {o : Output}
    {staging : Place} (hphase : c.phase i = .writing o (.filled staging)) :
    ({ c.set i (.writing o (.ended (o.verdict (c.store.moveInto staging o.path o.overwrite).1))) with
        store := (c.store.moveInto staging o.path o.overwrite).2 } : Course).Invariant
      b struck paths store fresh := by
  have hstaged : (c.phase i).staged? = some (staging, o.contents.toUTF8) := by rw [hphase]; rfl
  have hnow := (h.staged i staging _ hstaged).2.2
  have htree := FileStore.sameTree_moveInto hnow o.path o.overwrite
  have hsound := h.sound i p hp
  rw [hphase] at hsound
  cases hsound with
  | filled hdue hdir =>
      cases htarget : c.store.target o.path o.overwrite with
      | ok place =>
          rw [FileStore.moveInto_of_target hnow htarget] at htree ⊢
          exact h.land hnames hp hphase hdue (h.lands_of_target hnames hp hdue hdir htarget) htree
      | error f =>
          have hmoved := FileStore.moveInto_of_target_error hnow htarget
          rw [hmoved]
          exact h.giveUp hnames hp hphase f fun hne => absurd (by rw [hmoved]) hne

/-- A step in the writing of an output keeps the invariant. -/
theorem Invariant.write (h : c.Invariant b struck paths store fresh)
    (hnames : FreshNames fresh b store paths) (hp : paths[i]? = some p) {o : Output}
    {w x : Writing} {t : FileStore} (hphase : c.phase i = .writing o w)
    (hstep : Output.Step fresh o (c.store, w) (t, x)) (hrefused : o.Refused c.store w x → struck i) :
    ({ c.set i (.writing o x) with store := t } : Course).Invariant b struck paths store fresh := by
  have hsound := h.sound i p hp
  rw [hphase] at hsound
  cases hstep with
  | create hdir hfresh hfree => exact h.create hp hphase hdir hfresh hfree
  | createFails f =>
      have hdue : b.Due store paths i o := by cases hsound; assumption
      -- no staging file comes of a directory that is missing, or of a refusal
      have hwhy : struck i ∨ ∀ place, ¬ o.Lands store place := by
        by_cases hdir : ∃ dir, c.store.directoryOf o.path = .ok dir
        · exact .inl (hrefused hdir)
        · refine .inr fun place hlands => ?_
          obtain ⟨dir, hok⟩ := hlands.staged
          exact hdir ⟨dir, h.tree.directoryOf hok⟩
      refine h.set hp (by rw [hphase]; rfl) rfl (fun o' _ => ?_)
        (.ended hdue (.of_refusal hdue hp _ hwhy))
      rw [hphase]
      exact Iff.rfl
  | fill => exact h.fill hp hphase
  | fillFails f =>
      have hdue : b.Due store paths i o := by cases hsound; assumption
      exact h.unstage hnames hp hphase rfl hdue (.of_refusal hdue hp _ (.inl (hrefused trivial)))
  | move => exact h.move hnames hp hphase
  | moveFails f => exact h.giveUp hnames hp hphase f hrefused

/-- A step keeps the invariant. -/
theorem Step.invariant (hvalid : b.settings.validate = .ok ())
    (hnames : FreshNames fresh b store paths) (hstep : Step b false fresh struck paths c d)
    (h : c.Invariant b struck paths store fresh) : d.Invariant b struck paths store fresh := by
  cases hstep with
  | take hp hphase =>
      refine h.set hp (by rw [hphase]; rfl) rfl (fun o _ => ?_) .held
      rw [hphase]
      exact Iff.rfl
  | @consider i p hp hphase =>
      obtain ⟨hstaged, hdone⟩ := after_consider b c.store (paths.take i) p
      refine h.set hp (by rw [hphase]; rfl) hstaged (fun o _ => ?_)
        (h.sound_after hvalid hnames hp hphase)
      rw [hphase]
      exact ⟨fun hno => absurd hno id, fun hno => absurd hno (hdone o)⟩
  | write hp hphase hwrite hrefused => exact h.write hnames hp hphase hwrite hrefused
  | @conclude i p o r hp hphase =>
      have hsound := h.sound i p hp
      rw [hphase] at hsound
      cases hsound with
      | ended hdue hright =>
          refine h.set hp (by rw [hphase]; rfl) rfl (fun o' hdue' => ?_) (.settled hright)
          rw [hphase, hdue'.unique hdue]
          cases r with
          | ok _ => exact ⟨fun _ => rfl, fun _ => rfl⟩
          | error f => exact Iff.rfl

/-- A whole course keeps the invariant. -/
theorem Steps.invariant (hvalid : b.settings.validate = .ok ())
    (hnames : FreshNames fresh b store paths)
    (h : Steps b false fresh struck paths (start store) c) :
    c.Invariant b struck paths store fresh := by
  induction h with
  | refl => exact invariant_start b fresh struck paths store
  | tail _ hstep ih => exact hstep.invariant hvalid hnames ih

end Steps

end Course

end FacetQuery

import FacetQuery.Proofs.Batch.Schedule

/-!
# `FacetQuery.Proofs.Batch.Outputs` — when no two paths of a batch are written to one file

The table of claims compares outputs as paths, so of two paths with one output only one is ever written. Two
outputs that differ as paths, such as `a.yaml` and `./a.yaml`, may still name one file, and then nothing in the
table keeps them apart. Where nothing may be replaced the move does: the second of them finds the place taken
(`Course.Steps.wrote_unique`). Where outputs may be replaced both are written, one over the other, in every run
to which the system refuses nothing (`Course.Steps.leads`).

So a batch keeps its outputs apart iff nothing may be replaced or no two of its paths are rivals, that is, would
each be written to one place alone (`Pool.outputs_apart_iff`).

## Contents
- `FileStore.KeepsApart` and `Batch.HasRivals`, the two sides.
- `Course.Step.wrote_cases`: a place is newly written to by a move that finds it as it must be.
- `Phase.Leads`: the way to a written output, which a path does not leave unless the system refuses.
- `Pool.outputs_apart_iff`.
-/

namespace FacetQuery

/-! ## The two sides -/

/-- No two of the reports are of outputs that were written to one place. -/
def FileStore.KeepsApart (s : FileStore) (reports : List Report) : Prop :=
  ∀ (i j : Nat) (p q path path' : Path) (place : Place), reports[i]? = some ⟨p, .written path⟩ →
    reports[j]? = some ⟨q, .written path'⟩ → s.resolve path.text.toList = .ok place →
    s.resolve path'.text.toList = .ok place → i = j

/-- The path with this index is not shadowed, and alone its output is written, to this place. -/
def Batch.WouldWrite (b : Batch) (store : FileStore) (paths : List Path) (i : Nat) (path : Path)
    (place : Place) : Prop :=
  ∃ p, paths[i]? = some p ∧ ¬ b.Shadowed paths i p ∧ (b.convert store p).value.1 = .written path ∧
    store.resolve path.text.toList = .ok place

/-- Two paths of the batch would be written to one place. -/
def Batch.HasRivals (b : Batch) (store : FileStore) (paths : List Path) : Prop :=
  ∃ i j path path' place, i ≠ j ∧ b.WouldWrite store paths i path place ∧
    b.WouldWrite store paths j path' place

section Sides

variable {b : Batch} {store : FileStore} {paths : List Path} {i : Nat} {path : Path} {place : Place}

/-- What would be written is an output that is due and lands. -/
theorem Batch.wouldWrite_iff : b.WouldWrite store paths i path place ↔
    ∃ o, b.Due store paths i o ∧ o.Lands store place ∧ o.path = path := by
  constructor
  · rintro ⟨p, hp, hshadowed, hconvert, hplace⟩
    obtain ⟨o, place', hjudge, rfl, hlands⟩ := Batch.lands_of_convert hconvert
    have hsame : place' = place := Except.ok.inj (hlands.resolve.symm.trans hplace)
    exact ⟨o, ⟨p, hp, Batch.isClaimed_eq_false_iff.mpr hshadowed, hjudge⟩, hsame ▸ hlands, rfl⟩
  · rintro ⟨o, ⟨p, hp, hclaim, hjudge⟩, hlands, rfl⟩
    exact ⟨p, hp, Batch.isClaimed_eq_false_iff.mp hclaim, Batch.convert_of_lands hjudge hlands,
      hlands.resolve⟩

/-- An output may replace what the settings allow it to replace. -/
theorem Batch.Due.overwrite_eq {o : Output} (h : b.Due store paths i o) :
    o.overwrite = b.settings.overwrite := by
  obtain ⟨p, -, -, hjudge⟩ := h
  obtain ⟨-, -, rendering, -, rfl⟩ := Batch.judge_eq_inr_iff.mp hjudge
  rfl

end Sides

namespace Course

variable {b : Batch} {fresh : Place → Prop} {struck : Nat → Prop} {paths : List Path}
  {store : FileStore} {c d : Course} {i j : Nat} {p : Path} {o o' : Output} {place : Place}

/-! ## Who has written to a place -/

/-- A staging file that is about to be moved holds the contents of its output. -/
theorem Invariant.get?_of_filled (h : c.Invariant b struck paths store fresh)
    (hphase : c.phase i = .writing o (.filled place)) :
    c.store.get? place = some (.file o.contents.toUTF8) := by
  have hstaged : (c.phase i).staged? = some (place, o.contents.toUTF8) := by
    rw [hphase]
    rfl
  exact (h.staged i place _ hstaged).2.2

/-- An output that was not written before a step is written by the move of its staging file, which finds its
    goal; and the step is the doing of no other path. -/
theorem Step.wrote_cases (hstep : Step b false fresh struck paths c d)
    (h : c.Invariant b struck paths store fresh) (hw : d.Wrote b paths store i o place) :
    c.Wrote b paths store i o place ∨
      (∃ goal, c.store.target o.path o.overwrite = .ok goal) ∧ ∀ k, k ≠ i → d.phase k = c.phase k := by
  have hdone := hw.done
  by_cases hbefore : (c.phase i).Done o
  · exact .inl ⟨hw.due, hw.lands, hbefore⟩
  -- the path itself has taken the step, since the phase of any other is as it was
  have hself : ∀ {k x t}, d = { c.set k x with store := t } → k = i ∧ x.Done o := by
    rintro k x t rfl
    have hk : k = i := by
      apply Classical.byContradiction
      intro hne
      have hphase : (c.set k x).phase i = c.phase i := c.phase_set_of_ne (Ne.symm hne) x
      exact hbefore (hphase ▸ hdone)
    subst hk
    have hphase : (c.set k x).phase k = x := c.phase_set_self k x
    exact ⟨rfl, hphase ▸ hdone⟩
  cases hstep with
  | take hp hphase => exact absurd (hself (t := c.store) rfl).2 id
  | @consider k p hp hphase =>
      exact absurd (hself (t := c.store) rfl).2 ((after_consider b c.store (paths.take k) p).2 o)
  | @write k p o' w t x hp hphase hwrite hrefused =>
      obtain ⟨rfl, hx⟩ := hself rfl
      refine .inr ⟨?_, fun k hne => c.phase_set_of_ne hne _⟩
      cases hwrite with
      | create _ _ _ | createFails _ | fill | fillFails _ => exact absurd hx id
      | @move _ staging =>
          have hstaged := h.get?_of_filled hphase
          cases htarget : c.store.target o'.path o'.overwrite with
          | ok goal =>
              rw [FileStore.moveInto_of_target hstaged htarget] at hx
              cases (show o' = o from hx)
              exact ⟨goal, htarget⟩
          | error f =>
              obtain ⟨g, hg⟩ := o'.verdict_error f
              rw [FileStore.moveInto_of_target_error hstaged htarget, hg] at hx
              exact absurd hx id
      | moveFails f =>
          obtain ⟨g, hg⟩ := o'.verdict_error f
          rw [hg] at hx
          exact absurd hx id
  | @conclude k p o' r hp hphase =>
      obtain ⟨rfl, hx⟩ := hself (t := c.store) rfl
      have hsound := h.sound k p hp
      rw [hphase] at hsound hbefore
      cases hsound with
      | ended hdue hright =>
          cases r with
          | ok _ => exact absurd (hdue.unique hw.due) hbefore
          | error f => exact absurd hx id

/-- Where nothing may be replaced, nothing is moved to a place that a path has written to. -/
theorem Invariant.not_wrote_of_target (h : c.Invariant b struck paths store fresh)
    (hover : b.settings.overwrite = false) (hnames : FreshNames fresh b store paths)
    (hdue : b.Due store paths i o) (hlands : o.Lands store place) {goal : Place}
    (htarget : c.store.target o.path o.overwrite = .ok goal) : ¬ c.Wrote b paths store j o' place := by
  intro hw
  obtain ⟨hresolve, -, -, hfree⟩ := FileStore.target_eq_ok_iff.mp htarget
  have hgoal : goal = place :=
    Except.ok.inj (hresolve.symm.trans (h.tree.resolve hlands.resolve))
  have hnone := hfree (hdue.overwrite_eq.trans hover)
  rw [hgoal] at hnone
  rcases h.wrote_or_kept (hw.not_fresh hnames) with ⟨k, o'', -, hfile⟩ | ⟨hnobody, -⟩
  · exact nomatch hnone.symm.trans hfile
  · exact hnobody j o' hw

/-- Where nothing may be replaced, one path at most writes to a place. -/
theorem Steps.wrote_unique (hvalid : b.settings.validate = .ok ())
    (hnames : FreshNames fresh b store paths) (hover : b.settings.overwrite = false)
    (hsteps : Steps b false fresh struck paths (start store) c)
    (hi : c.Wrote b paths store i o place) (hj : c.Wrote b paths store j o' place) : i = j := by
  induction hsteps generalizing i j o o' with
  | refl => exact absurd hi.done id
  | @tail d e hsteps hstep ih =>
      have hinv := hsteps.invariant hvalid hnames
      -- of two paths that have written there now, one had before, and the other has found its place free
      have hnew : ∀ {k l u v}, e.Wrote b paths store k u place → e.Wrote b paths store l v place →
          (∃ goal, d.store.target u.path u.overwrite = .ok goal) →
          (∀ m, m ≠ k → e.phase m = d.phase m) → k = l := by
        rintro k l u v hk hl ⟨goal, htarget⟩ hothers
        apply Classical.byContradiction
        intro hne
        refine hinv.not_wrote_of_target hover hnames hk.due hk.lands htarget
          (⟨hl.due, hl.lands, ?_⟩ : d.Wrote b paths store l v place)
        rw [← hothers l (Ne.symm hne)]
        exact hl.done
      rcases hstep.wrote_cases hinv hi with hi' | ⟨htarget, hothers⟩
      · rcases hstep.wrote_cases hinv hj with hj' | ⟨htarget, hothers⟩
        · exact ih hi' hj'
        · exact (hnew hj hi htarget hothers).symm
      · exact hnew hi hj htarget hothers

end Course

/-! ## The way to a written output -/

/-- A phase on the way to the output in its place. -/
def Phase.Leads (o : Output) : Phase → Prop
  | .waiting | .held => True
  | .writing o' .ready | .writing o' (.created _) | .writing o' (.filled _) => o' = o
  | .writing o' (.ended r) => (Phase.writing o' (.ended r)).Done o
  | .settled outcome => (Phase.settled outcome).Done o

namespace Course

variable {b : Batch} {fresh : Place → Prop} {struck : Nat → Prop} {paths : List Path}
  {store : FileStore} {c d : Course} {i j : Nat} {p : Path} {o o' : Output} {place : Place}

/-- A path that has an output to write before the batch has the same one to write at every moment: what it is
    read from is not another path's output, or else it would be its own. -/
theorem Invariant.judge_of_due (h : c.Invariant b struck paths store fresh)
    (hvalid : b.settings.validate = .ok ()) (hnames : FreshNames fresh b store paths)
    (hp : paths[i]? = some p) (hdue : b.Due store paths i o) : (b.judge c.store p).value = .inr o := by
  obtain ⟨-, hjudge⟩ := hdue.judged hp
  have hother := (Batch.judge_eq_inr_iff.mp hjudge).2.1
  have hsame : b.accepts p = true → ∀ place, store.resolve p.text.toList = .ok place →
      c.store.get? place = store.get? place := by
    intro _ place hresolve
    rcases h.wrote_or_kept (hnames.input hp hresolve) with ⟨j, o', hw, -⟩ | ⟨-, hkept⟩
    · obtain ⟨q, -, -, hjudge'⟩ := hw.due
      have hself := Batch.outputPath_eq_self_of_meets hvalid hjudge' hw.lands hresolve
      rw [Batch.outputPath_same_of_eq hself] at hother
      exact nomatch hother
    · exact hkept
  rcases Batch.judge_agrees h.tree hsame with heq | ⟨f, g, hf, -⟩
  · exact heq.symm.trans hjudge
  · exact nomatch hjudge.symm.trans hf

/-- Where outputs may be replaced, a path that would be written stays on its way, unless the system refuses. -/
theorem Step.leads (hstep : Step b false fresh struck paths c d)
    (h : c.Invariant b struck paths store fresh) (hvalid : b.settings.validate = .ok ())
    (hnames : FreshNames fresh b store paths) (hover : b.settings.overwrite = true)
    (hdue : b.Due store paths i o) (hlands : o.Lands store place) (hstruck : ¬ struck i)
    (hleads : (c.phase i).Leads o) : (d.phase i).Leads o := by
  -- a step of another path leaves the phase as it is
  have hset : ∀ k x, (k = i → Phase.Leads o x) → ((c.set k x).phase i).Leads o := phase_set_of hleads
  cases hstep with
  | @take k p hp hphase => exact hset k _ fun _ => trivial
  | @consider k p hp hphase =>
      refine hset k _ fun hk => ?_
      subst hk
      rw [Batch.value_consider (hdue.judged hp).1, h.judge_of_due hvalid hnames hp hdue]
      exact rfl
  | @write k p o' w t x hp hphase hwrite hrefused =>
      refine hset k _ fun hk => ?_
      subst hk
      rw [hphase] at hleads
      have htarget (hsame : o' = o) : c.store.target o'.path o'.overwrite = .ok place := by
        subst hsame
        exact h.tree.target hlands.moved fun ho =>
          nomatch (hdue.overwrite_eq.trans hover).symm.trans ho
      cases hwrite with
      | create hdir hfresh hfree => exact hleads
      | createFails f =>
          cases (show o' = o from hleads)
          obtain ⟨dir, hdir⟩ := hlands.staged
          exact absurd (hrefused ⟨dir, h.tree.directoryOf hdir⟩) hstruck
      | fill => exact hleads
      | fillFails f => exact absurd (hrefused trivial) hstruck
      | @move _ staging =>
          rw [FileStore.moveInto_of_target (h.get?_of_filled hphase) (htarget hleads)]
          exact hleads
      | moveFails f =>
          have hrefusal := o'.refused_of_target (h.get?_of_filled hphase) (htarget hleads) f
          exact absurd (hrefused hrefusal) hstruck
  | @conclude k p o' r hp hphase =>
      refine hset k _ fun hk => ?_
      subst hk
      rw [hphase] at hleads
      cases r with
      | ok _ => exact congrArg Output.path (show o' = o from hleads)
      | error f => exact hleads

/-- Through a whole course the path stays on its way. -/
theorem Steps.leads (hsteps : Steps b false fresh struck paths (start store) c)
    (hvalid : b.settings.validate = .ok ()) (hnames : FreshNames fresh b store paths)
    (hover : b.settings.overwrite = true) (hdue : b.Due store paths i o)
    (hlands : o.Lands store place) (hstruck : ¬ struck i) : (c.phase i).Leads o := by
  induction hsteps with
  | refl => trivial
  | tail hsteps hstep ih =>
      exact hstep.leads (hsteps.invariant hvalid hnames) hvalid hnames hover hdue hlands hstruck ih

end Course

/-! ## Reports of written outputs -/

namespace Pool

variable {b : Batch} {fresh : Place → Prop} {struck : Nat → Prop} {paths : List Path}
  {store : FileStore} {workers : Nat} {pool : Pool} {i : Nat} {path : Path} {place : Place}

/-- When all workers are done, whatever was reported as written has been written. -/
theorem wrote_of_finished (hvalid : b.settings.validate = .ok ())
    (hnames : FreshNames fresh b store paths) (hworkers : 0 < workers)
    (hrun : Run b false fresh struck paths (start store workers) pool) (hfinished : pool.Finished) :
    ∃ c : Course, Course.Steps b false fresh struck paths (Course.start store) c ∧
      FileStore.SameTree store pool.shared.store ∧
      ∀ i p path, (pool.reports paths.length)[i]? = some ⟨p, .written path⟩ →
        ∃ o place, c.Wrote b paths store i o place ∧ o.path = path := by
  obtain ⟨c, hsteps, hstore, -, -, hreports⟩ := course_of_finished hworkers hrun hfinished
  have hinv := hsteps.invariant hvalid hnames
  refine ⟨c, hsteps, hstore ▸ hinv.tree, fun i p path hreport => ?_⟩
  have hp : paths[i]? = some p := getElem?_of_report hworkers hrun hfinished hreport
  obtain ⟨outcome, hphase, hreport'⟩ := hreports i p hp
  cases hreport.symm.trans hreport'
  have hsound := hinv.sound i p hp
  rw [hphase] at hsound
  cases hsound with
  | settled hright => exact hright.wrote hp hphase

/-- Where outputs may be replaced, a path that would be written is reported as written, unless the system
    refuses. -/
theorem reported_of_wouldWrite (hvalid : b.settings.validate = .ok ())
    (hnames : FreshNames fresh b store paths) (hworkers : 0 < workers)
    (hover : b.settings.overwrite = true)
    (hrun : Run b false fresh struck paths (start store workers) pool) (hfinished : pool.Finished)
    (hstruck : ¬ struck i) (h : b.WouldWrite store paths i path place) :
    ∃ p, paths[i]? = some p ∧ (pool.reports paths.length)[i]? = some ⟨p, .written path⟩ := by
  obtain ⟨o, hdue, hlands, rfl⟩ := Batch.wouldWrite_iff.mp h
  obtain ⟨c, hsteps, -, -, -, hreports⟩ := course_of_finished hworkers hrun hfinished
  have hleads := hsteps.leads hvalid hnames hover hdue hlands hstruck
  obtain ⟨p, hp, -, -⟩ := hdue
  obtain ⟨outcome, hphase, hreport⟩ := hreports i p hp
  rw [hphase] at hleads
  cases outcome with
  | written path =>
      cases (show path = o.path from hleads)
      exact ⟨p, hp, hreport⟩
  | collected _ | empty | failed _ | skipped _ | cancelled => exact hleads.elim

/-- Of two paths that were written, no output is the other as a path. -/
theorem outputs_differ (hvalid : b.settings.validate = .ok ())
    (hnames : FreshNames fresh b store paths) (hworkers : 0 < workers)
    (hrun : Run b false fresh struck paths (start store workers) pool) (hfinished : pool.Finished)
    {j : Nat} {p q path' : Path} (hi : (pool.reports paths.length)[i]? = some ⟨p, .written path⟩)
    (hj : (pool.reports paths.length)[j]? = some ⟨q, .written path'⟩) (hne : i ≠ j) :
    path.same path' = false := by
  obtain ⟨c, -, -, hwrote⟩ := wrote_of_finished hvalid hnames hworkers hrun hfinished
  obtain ⟨o, place, hw, rfl⟩ := hwrote i p path hi
  obtain ⟨o', place', hw', rfl⟩ := hwrote j q path' hj
  rw [← Bool.not_eq_true]
  intro hsame
  obtain ⟨u, hu, hclaim, hjudge⟩ := hw.due
  obtain ⟨v, hv, hclaim', hjudge'⟩ := hw'.due
  rw [hw.due.path_eq hu, hw'.due.path_eq hv] at hsame
  exact Batch.not_both_unclaimed (Batch.judge_eq_inr_iff.mp hjudge).1 (Ne.symm hne) hu hv
    (Batch.accepts_of_judge hjudge) (Batch.accepts_of_judge hjudge') hsame hclaim hclaim'

/-- Two paths are written to one place only if that may be replaced and they are rivals. -/
theorem rivals_of_reported (hvalid : b.settings.validate = .ok ())
    (hnames : FreshNames fresh b store paths) (hworkers : 0 < workers)
    (hrun : Run b false fresh struck paths (start store workers) pool) (hfinished : pool.Finished)
    {j : Nat} {p q path' : Path} (hi : (pool.reports paths.length)[i]? = some ⟨p, .written path⟩)
    (hj : (pool.reports paths.length)[j]? = some ⟨q, .written path'⟩) (hne : i ≠ j)
    (hplace : pool.shared.store.resolve path.text.toList = .ok place)
    (hplace' : pool.shared.store.resolve path'.text.toList = .ok place) :
    b.settings.overwrite = true ∧ b.HasRivals store paths := by
  obtain ⟨c, hsteps, htree, hwrote⟩ := wrote_of_finished hvalid hnames hworkers hrun hfinished
  obtain ⟨o, goal, hw, rfl⟩ := hwrote i p path hi
  obtain ⟨o', goal', hw', rfl⟩ := hwrote j q path' hj
  have hgoal : goal = place :=
    Except.ok.inj ((htree.resolve hw.lands.resolve).symm.trans hplace)
  have hgoal' : goal' = place :=
    Except.ok.inj ((htree.resolve hw'.lands.resolve).symm.trans hplace')
  subst hgoal
  subst hgoal'
  refine ⟨?_, i, j, o.path, o'.path, goal', hne, ?_, ?_⟩
  · rw [← Bool.not_eq_false]
    intro hover
    exact hne (hsteps.wrote_unique hvalid hnames hover hw hw')
  · exact Batch.wouldWrite_iff.mpr ⟨o, hw.due, hw.lands, rfl⟩
  · exact Batch.wouldWrite_iff.mpr ⟨o', hw'.due, hw'.lands, rfl⟩

/-- Rivals are both written to one place where that may be replaced and the system refuses nothing. -/
theorem not_keepsApart_of_rivals (hvalid : b.settings.validate = .ok ())
    (hnames : FreshNames fresh b store paths) (hworkers : 0 < workers)
    (hover : b.settings.overwrite = true) (hrivals : b.HasRivals store paths)
    (hrun : Run b false fresh (fun _ => False) paths (start store workers) pool)
    (hfinished : pool.Finished) : ¬ pool.shared.store.KeepsApart (pool.reports paths.length) := by
  obtain ⟨i, j, path, path', place, hne, hi, hj⟩ := hrivals
  obtain ⟨-, -, htree, -⟩ := wrote_of_finished hvalid hnames hworkers hrun hfinished
  obtain ⟨p, -, hp⟩ := reported_of_wouldWrite hvalid hnames hworkers hover hrun hfinished id hi
  obtain ⟨q, -, hq⟩ := reported_of_wouldWrite hvalid hnames hworkers hover hrun hfinished id hj
  obtain ⟨-, -, -, -, hplace⟩ := hi
  obtain ⟨-, -, -, -, hplace'⟩ := hj
  intro hapart
  exact hne (hapart i j p q path path' place hp hq (htree.resolve hplace) (htree.resolve hplace'))

/-! ## When outputs are kept apart -/

/-- **A batch keeps its outputs apart iff it has no rivals whose outputs may be replaced.** Take valid settings
    and any number of workers. No run has two reports of outputs written to one place iff nothing may be replaced
    or no two paths that are not shadowed would be written to one place alone. If there are such paths and
    outputs may be replaced, every run to which the system refuses nothing has two such reports. In any run the
    outputs that were written differ as paths. -/
theorem outputs_apart_iff (hvalid : b.settings.validate = .ok ())
    (hnames : FreshNames fresh b store paths) (hworkers : 0 < workers) :
    ((∀ struck pool, Run b false fresh struck paths (start store workers) pool → pool.Finished →
        pool.shared.store.KeepsApart (pool.reports paths.length)) ↔
      (b.settings.overwrite = true → ¬ b.HasRivals store paths)) ∧
    (b.settings.overwrite = true → b.HasRivals store paths →
      ∀ pool, Run b false fresh (fun _ => False) paths (start store workers) pool → pool.Finished →
        ¬ pool.shared.store.KeepsApart (pool.reports paths.length)) ∧
    ∀ struck pool, Run b false fresh struck paths (start store workers) pool → pool.Finished →
      ∀ (i j : Nat) (p q path path' : Path), (pool.reports paths.length)[i]? = some ⟨p, .written path⟩ →
        (pool.reports paths.length)[j]? = some ⟨q, .written path'⟩ → i ≠ j →
        path.same path' = false := by
  refine ⟨⟨fun h hover hrivals => ?_, fun h struck pool hrun hfinished => ?_⟩,
    fun hover hrivals pool => not_keepsApart_of_rivals hvalid hnames hworkers hover hrivals,
    fun struck pool hrun hfinished i j p q path path' hi hj =>
      outputs_differ hvalid hnames hworkers hrun hfinished hi hj⟩
  · obtain ⟨pool, hrun, hfinished⟩ := exists_finished hnames.left (start store workers)
    exact not_keepsApart_of_rivals hvalid hnames hworkers hover hrivals hrun hfinished
      (h _ pool hrun hfinished)
  · intro i j p q path path' place hi hj hplace hplace'
    apply Classical.byContradiction
    intro hne
    obtain ⟨hover, hrivals⟩ :=
      rivals_of_reported hvalid hnames hworkers hrun hfinished hi hj hne hplace hplace'
    exact h hover hrivals

/-! ### Two spellings of one output -/

/-- Two files in the current directory; the second is named with a dot in front by the paths below. -/
def spellings : FileStore :=
  ⟨["w"], [(["w"], .directory), (["w", "a.txt"], .file "model=FIRST\n".toUTF8),
    (["w", "a.md"], .file "model=SECOND\n".toUTF8)]⟩

theorem freshNames_spellings :
    FreshNames StagingPlace ⟨Settings.default, .files⟩ spellings [⟨"a.txt"⟩, ⟨"./a.md"⟩] := by
  refine freshNames_stagingPlace fun p hp place hresolve => ?_
  have hname : place.getLast? = some "a.txt" ∨ place.getLast? = some "a.md" ∨
      place.getLast? = some "a.yaml" := by
    simp only [Batch.involved, List.map_cons, List.map_nil, List.cons_append, List.nil_append,
      List.mem_cons, List.not_mem_nil, or_false] at hp
    rcases hp with rfl | rfl | rfl | rfl
    · exact .inl (congrArg List.getLast? (Except.ok.inj hresolve).symm)
    · exact .inr (.inl (congrArg List.getLast? (Except.ok.inj hresolve).symm))
    · exact .inr (.inr (congrArg List.getLast? (Except.ok.inj hresolve).symm))
    · exact .inr (.inr (congrArg List.getLast? (Except.ok.inj hresolve).symm))
  rintro ⟨n, hn⟩
  rw [hn] at hname
  -- a staging name begins with a dot, and none of the three does
  have hdot : (FileStore.stagingName n).toList.head? = some '.' := by simp [FileStore.stagingName]
  rcases hname with h | h | h <;>
    · rw [Option.some.inj h] at hdot
      exact absurd hdot (by decide)

theorem wouldWrite_spellings :
    Batch.WouldWrite ⟨Settings.default, .files⟩ spellings [⟨"a.txt"⟩, ⟨"./a.md"⟩] 0 ⟨"a.yaml"⟩
        ["w", "a.yaml"] ∧
      Batch.WouldWrite ⟨Settings.default, .files⟩ spellings [⟨"a.txt"⟩, ⟨"./a.md"⟩] 1 ⟨"./a.yaml"⟩
        ["w", "a.yaml"] := by
  have hfirst : (Batch.prepare ⟨Settings.default, .files⟩ spellings ⟨"a.txt"⟩).value =
      .inr "model: \"FIRST\"\n" :=
    (Batch.prepare_of_file rfl (show spellings.resolve "a.txt".toList = .ok ["w", "a.txt"] from rfl)
      rfl).trans (by decide +kernel)
  have hsecond : (Batch.prepare ⟨Settings.default, .files⟩ spellings ⟨"./a.md"⟩).value =
      .inr "model: \"SECOND\"\n" :=
    (Batch.prepare_of_file rfl (show spellings.resolve "./a.md".toList = .ok ["w", "a.md"] from rfl)
      rfl).trans (by decide +kernel)
  have hjudge : (Batch.judge ⟨Settings.default, .files⟩ spellings ⟨"a.txt"⟩).value =
      .inr ⟨⟨"a.yaml"⟩, "model: \"FIRST\"\n", true⟩ :=
    Batch.judge_eq_inr_iff.mpr ⟨rfl, rfl, _, hfirst, rfl⟩
  have hjudge' : (Batch.judge ⟨Settings.default, .files⟩ spellings ⟨"./a.md"⟩).value =
      .inr ⟨⟨"./a.yaml"⟩, "model: \"SECOND\"\n", true⟩ :=
    Batch.judge_eq_inr_iff.mpr ⟨rfl, rfl, _, hsecond, rfl⟩
  exact ⟨Batch.wouldWrite_iff.mpr ⟨_, ⟨_, rfl, rfl, hjudge⟩, ⟨⟨["w"], rfl⟩, rfl⟩, rfl⟩,
    Batch.wouldWrite_iff.mpr ⟨_, ⟨_, rfl, rfl, hjudge'⟩, ⟨⟨["w"], rfl⟩, rfl⟩, rfl⟩⟩

/-- Two workers write both outputs to one place, whatever the order of their steps. -/
theorem outputs_apart_iff_spellings :
    FreshNames StagingPlace ⟨Settings.default, .files⟩ spellings [⟨"a.txt"⟩, ⟨"./a.md"⟩] ∧
      Batch.HasRivals ⟨Settings.default, .files⟩ spellings [⟨"a.txt"⟩, ⟨"./a.md"⟩] ∧
      ∀ pool, Run ⟨Settings.default, .files⟩ false StagingPlace (fun _ => False)
        [⟨"a.txt"⟩, ⟨"./a.md"⟩] (start spellings 2) pool → pool.Finished →
        ¬ pool.shared.store.KeepsApart (pool.reports 2) := by
  have hrivals : Batch.HasRivals ⟨Settings.default, .files⟩ spellings [⟨"a.txt"⟩, ⟨"./a.md"⟩] :=
    ⟨0, 1, _, _, _, by decide, wouldWrite_spellings.1, wouldWrite_spellings.2⟩
  exact ⟨freshNames_spellings, hrivals,
    (outputs_apart_iff rfl freshNames_spellings (show 0 < 2 by decide)).2.1 rfl hrivals⟩

/-- A single worker to which nothing is refused reports both outputs as written, and both name one place. -/
theorem run_writes_one_place_twice :
    ∃ pool, Run ⟨Settings.default, .files⟩ false StagingPlace (fun _ => False)
        [⟨"a.txt"⟩, ⟨"./a.md"⟩] (start spellings 1) pool ∧ pool.Finished ∧
      (pool.reports 2)[0]? = some ⟨⟨"a.txt"⟩, .written ⟨"a.yaml"⟩⟩ ∧
      (pool.reports 2)[1]? = some ⟨⟨"./a.md"⟩, .written ⟨"./a.yaml"⟩⟩ ∧
      pool.shared.store.resolve "a.yaml".toList = .ok ["w", "a.yaml"] ∧
      pool.shared.store.resolve "./a.yaml".toList = .ok ["w", "a.yaml"] := by
  obtain ⟨pool, hrun, hfinished⟩ : ∃ pool, Run ⟨Settings.default, .files⟩ false StagingPlace
      (fun _ => False) [⟨"a.txt"⟩, ⟨"./a.md"⟩] (start spellings 1) pool ∧ pool.Finished :=
    exists_finished freshNames_spellings.left (start spellings 1)
  obtain ⟨-, -, htree, -⟩ := wrote_of_finished rfl freshNames_spellings (by decide) hrun hfinished
  obtain ⟨p, hp, hreport⟩ := reported_of_wouldWrite rfl freshNames_spellings (by decide) rfl hrun
    hfinished id wouldWrite_spellings.1
  obtain ⟨q, hq, hreport'⟩ := reported_of_wouldWrite rfl freshNames_spellings (by decide) rfl hrun
    hfinished id wouldWrite_spellings.2
  cases hp
  cases hq
  exact ⟨pool, hrun, hfinished, hreport, hreport', htree.resolve rfl, htree.resolve rfl⟩

end Pool

end FacetQuery

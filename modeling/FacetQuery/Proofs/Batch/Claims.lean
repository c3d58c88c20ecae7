import FacetQuery.Proofs.Batch.Inputs
import FacetQuery.Proofs.Query.Artifact

/-!
# `FacetQuery.Proofs.Batch.Claims` — in whose favour a path is passed over

A path whose output is claimed is passed over in favour of the first path with that output
(`Batch.Shadowed.exists_favoured`). The table of claims is made from the paths alone, and it heeds the extension
that inputs must have; but it does not heed that a path which is its own output will have nothing written for it.
Such a path is passed over itself once it has been read, and then nobody was served by the claim.

That is the only way for a claim to serve nobody (`Batch.Judged`), and whether it comes about is settled by the
files before the batch: a path that is its own output may well find another path's artifact under its name, but an
artifact is no selection, so the path fails then (`Course.Came.ownInput_alone`). So the claims of a batch serve
somebody in every run iff no path is passed over in favour of one that would, alone, be skipped as its own output
(`Pool.claims_serve_iff`).
-/

namespace FacetQuery

/-- The path was dealt with to the end: written, or found to be empty, or failed. -/
def Outcome.Processed : Outcome → Prop
  | written _ | empty | failed _ => True
  | collected _ | skipped _ | cancelled => False

theorem Batch.conclude_processed (p : Path) (o : Output) (r : Except Fault Unit) :
    (conclude p o r).value.Processed := by
  cases r <;> trivial

/-- A path that is skipped alone has nothing to write. -/
theorem Batch.judge_of_skipped {b : Batch} {store : FileStore} {p : Path} {reason : SkipReason}
    (h : (b.convert store p).value.1 = .skipped reason) :
    (b.judge store p).value = .inl (.skipped reason) := by
  cases hjudge : (b.judge store p).value with
  | inl outcome =>
      rw [convert_of_inl hjudge] at h
      exact congrArg Sum.inl h
  | inr o =>
      rw [convert_of_inr hjudge] at h
      have houtcome : (conclude p o (o.write store).value.1).value = .skipped reason := h
      have hprocessed := conclude_processed p o (o.write store).value.1
      rw [houtcome] at hprocessed
      exact hprocessed.elim

/-! ## The first path with an output -/

theorem Path.same_trans {p q r : Path} (h : p.same q = true) (h' : q.same r = true) : p.same r = true := by
  unfold same at h h' ⊢
  rw [beq_iff_eq] at h h' ⊢
  exact h.trans h'

namespace Batch

/-- The path `q` with index `j` is the first that claims the output of the path `p` with index `i`. -/
structure Favours (b : Batch) (paths : List Path) (j : Nat) (q : Path) (i : Nat) (p : Path) : Prop where
  lt : j < i
  get : paths[j]? = some q
  accepts : b.accepts q = true
  unshadowed : ¬ b.Shadowed paths j q
  same : (b.outputPath q).same (b.outputPath p) = true

variable {b : Batch} {paths : List Path} {i : Nat} {p : Path} {store : FileStore}

theorem exists_getElem?_of_mem_take {q : Path} (h : q ∈ paths.take i) :
    ∃ j < i, paths[j]? = some q := by
  obtain ⟨j, hj, rfl⟩ := List.mem_take_iff_getElem.mp h
  exact ⟨j, by omega, List.getElem?_eq_getElem (by omega)⟩

/-- A shadowed path has a first path with its output before it. -/
theorem Shadowed.exists_favoured (h : b.Shadowed paths i p) : ∃ j q, b.Favours paths j q i p := by
  obtain ⟨hfiles, -, q, hq, haccepts, hsame⟩ := h
  obtain ⟨j, hlt, hj⟩ := exists_getElem?_of_mem_take hq
  clear hq
  -- a path that is shadowed itself has an earlier one with the same output
  induction j using Nat.strongRecOn generalizing q with
  | ind j ih =>
      by_cases hshadowed : b.Shadowed paths j q
      · obtain ⟨-, -, r, hr, haccepts', hsame'⟩ := hshadowed
        obtain ⟨k, hkj, hk⟩ := exists_getElem?_of_mem_take hr
        exact ih k hkj r haccepts' (Path.same_trans hsame' hsame) (Nat.lt_trans hkj hlt) hk
      · exact ⟨j, q, hlt, hj, haccepts, hshadowed, hsame⟩

/-- There is no other that has the extension asked for and is not shadowed. -/
theorem Favours.index_eq {j k : Nat} {q r : Path} (h : b.Favours paths j q i p) (hfiles : b.sink = .files)
    (hr : paths[k]? = some r) (haccepts : b.accepts r = true) (hunshadowed : ¬ b.Shadowed paths k r)
    (hsame : (b.outputPath r).same (b.outputPath p) = true) : k = j := by
  apply Classical.byContradiction
  intro hne
  apply not_both_unclaimed hfiles hne h.get hr h.accepts haccepts
  · rw [Path.same_comm] at hsame
    exact Path.same_trans h.same hsame
  · exact isClaimed_eq_false_iff.mpr h.unshadowed
  · exact isClaimed_eq_false_iff.mpr hunshadowed

/-! ## What becomes of an artifact that is read -/

/-- An artifact that stands where a path is read makes it fail. -/
theorem rendered_of_rendering {q : Path} {rendering : String}
    (h : (b.prepare store q).value = .inr rendering) (p : Path) :
    ∃ f, b.rendered p rendering = .inl (.failed f) := by
  obtain ⟨haccepts, text, hread⟩ := accepts_of_prepare h
  rw [prepare_of_accepts haccepts, hread] at h
  simp only [rendered] at h
  split at h
  · next hresult =>
      cases h
      obtain ⟨m, hm⟩ := Conversion.refused_of_rendering (Prod.ext hresult rfl)
      refine ⟨.grammar m, ?_⟩
      rw [rendered, Conversion.process_of_refused hm]
      rfl
  · split at h
    · cases h
    · cases h

end Batch

/-! ## Where an outcome comes from -/

namespace Course

/-- What a path was through when it came to a phase. A path that has nothing to write was judged at some moment
    of the batch, and the invariant held then. -/
inductive Came (b : Batch) (fresh : Place → Prop) (struck : Nat → Prop) (paths : List Path)
    (store : FileStore) (i : Nat) (p : Path) : Phase → Prop
  | waiting : Came b fresh struck paths store i p .waiting
  | held : Came b fresh struck paths store i p .held
  | claimed (h : b.Shadowed paths i p) : Came b fresh struck paths store i p (.settled (.skipped .claimed))
  | judged {m : Course} {outcome} (h : ¬ b.Shadowed paths i p)
      (hm : m.Invariant b struck paths store fresh) (hjudge : (b.judge m.store p).value = .inl outcome) :
      Came b fresh struck paths store i p (.settled outcome)
  | writing {o w} (h : ¬ b.Shadowed paths i p) (haccepts : b.accepts p = true) :
      Came b fresh struck paths store i p (.writing o w)
  | concluded {outcome} (h : ¬ b.Shadowed paths i p) (haccepts : b.accepts p = true)
      (hprocessed : outcome.Processed) : Came b fresh struck paths store i p (.settled outcome)

variable {b : Batch} {fresh : Place → Prop} {struck : Nat → Prop} {paths : List Path}
  {store : FileStore} {c d : Course} {i : Nat} {p : Path} {outcome : Outcome}

/-- A path that is considered is passed over, or judged on the files of the moment. -/
theorem Invariant.came_after (h : c.Invariant b struck paths store fresh) (i : Nat) (p : Path) :
    Came b fresh struck paths store i p (.after (b.consider false c.store (paths.take i) p).value) := by
  cases hclaim : b.isClaimed (paths.take i) p with
  | true =>
      rw [Batch.value_consider_of_claimed hclaim]
      exact .claimed (Batch.isClaimed_iff.mp hclaim)
  | false =>
      have hunshadowed := Batch.isClaimed_eq_false_iff.mp hclaim
      rw [Batch.value_consider hclaim]
      cases hjudge : (b.judge c.store p).value with
      | inl outcome => exact .judged hunshadowed h hjudge
      | inr o => exact .writing hunshadowed (Batch.accepts_of_judge hjudge)

/-- A step takes each path on the way. -/
theorem Step.came (hstep : Step b false fresh struck paths c d)
    (h : c.Invariant b struck paths store fresh) (hp : paths[i]? = some p)
    (hcame : Came b fresh struck paths store i p (c.phase i)) :
    Came b fresh struck paths store i p (d.phase i) := by
  -- a step of another path leaves the phase as it is
  have hset : ∀ k x, (k = i → Came b fresh struck paths store i p x) →
      Came b fresh struck paths store i p ((c.set k x).phase i) := phase_set_of hcame
  cases hstep with
  | take hq hphase => exact hset _ _ fun _ => .held
  | @consider k q hq hphase =>
      refine hset k _ fun hk => ?_
      subst hk
      cases hp.symm.trans hq
      exact h.came_after k p
  | @write k q o w t x hq hphase hwrite hrefused =>
      refine hset k _ fun hk => ?_
      subst hk
      rw [hphase] at hcame
      cases hcame with
      | writing hunshadowed haccepts => exact .writing hunshadowed haccepts
  | @conclude k q o r hq hphase =>
      refine hset k _ fun hk => ?_
      subst hk
      cases hp.symm.trans hq
      rw [hphase] at hcame
      cases hcame with
      | writing hunshadowed haccepts =>
          exact .concluded hunshadowed haccepts (Batch.conclude_processed p o r)

/-- So does a whole course. -/
theorem Steps.came (hvalid : b.settings.validate = .ok ()) (hnames : FreshNames fresh b store paths)
    (hsteps : Steps b false fresh struck paths (start store) c) (hp : paths[i]? = some p) :
    Came b fresh struck paths store i p (c.phase i) := by
  induction hsteps with
  | refl => exact .waiting
  | tail hsteps hstep ih => exact hstep.came (hsteps.invariant hvalid hnames) hp ih

/-- Only a shadowed path is passed over as claimed. -/
theorem Came.shadowed_of_claimed (h : Came b fresh struck paths store i p (.settled (.skipped .claimed))) :
    b.Shadowed paths i p := by
  cases h with
  | claimed hshadowed => exact hshadowed
  | concluded _ _ hprocessed => exact hprocessed.elim
  | judged _ _ hjudge => exact nomatch Batch.judged_of_judge hjudge

/-- A shadowed path is passed over as claimed. -/
theorem Came.claimed_of_shadowed (h : Came b fresh struck paths store i p (.settled outcome))
    (hshadowed : b.Shadowed paths i p) : outcome = .skipped .claimed := by
  cases h with
  | claimed _ => rfl
  | concluded hunshadowed _ _ => exact absurd hshadowed hunshadowed
  | judged hunshadowed _ _ => exact absurd hshadowed hunshadowed

/-- Only a path that is not shadowed and has the extension asked for is dealt with to the end. -/
theorem Came.of_processed (h : Came b fresh struck paths store i p (.settled outcome))
    (hprocessed : outcome.Processed) : b.accepts p = true ∧ ¬ b.Shadowed paths i p := by
  cases h with
  | claimed _ => exact hprocessed.elim
  | concluded hunshadowed haccepts _ => exact ⟨haccepts, hunshadowed⟩
  | judged hunshadowed _ hjudge =>
      cases Batch.judged_of_judge hjudge with
      | empty haccepts => exact ⟨haccepts, hunshadowed⟩
      | failed haccepts => exact ⟨haccepts, hunshadowed⟩
      | otherExtension _ => exact hprocessed.elim
      | collected _ _ => exact hprocessed.elim
      | ownInput _ _ _ => exact hprocessed.elim

/-- A path that is not shadowed and has the extension asked for is dealt with to the end, unless it is its own
    output and is skipped for that. -/
theorem Came.processed_or (h : Came b fresh struck paths store i p (.settled outcome))
    (hfiles : b.sink = .files) (haccepts : b.accepts p = true) (hunshadowed : ¬ b.Shadowed paths i p) :
    outcome.Processed ∨ outcome = .skipped .ownInput ∧ (b.outputPath p).same p = true := by
  cases h with
  | claimed hshadowed => exact absurd hshadowed hunshadowed
  | concluded _ _ hprocessed => exact .inl hprocessed
  | judged _ _ hjudge =>
      cases Batch.judged_of_judge hjudge with
      | empty _ => exact .inl trivial
      | failed _ => exact .inl trivial
      | ownInput _ _ hsame => exact .inr ⟨rfl, hsame⟩
      | otherExtension hother => exact nomatch hother.symm.trans haccepts
      | collected _ hcollect => exact nomatch hcollect.symm.trans hfiles

/-- A path that is skipped as its own output would be alone: if another path had written where it is read, it
    would have failed. -/
theorem Came.ownInput_alone (hnames : FreshNames fresh b store paths) (hp : paths[i]? = some p)
    (h : Came b fresh struck paths store i p (.settled (.skipped .ownInput))) :
    (b.convert store p).value.1 = .skipped .ownInput := by
  cases h with
  | concluded _ _ hprocessed => exact hprocessed.elim
  | @judged m _ _ hm hjudge =>
      cases Batch.judged_of_judge hjudge with
      | ownInput hprepare _ _ =>
          obtain ⟨haccepts, text, hread⟩ := Batch.accepts_of_prepare hprepare
          obtain ⟨place, bytes, hresolve, hfile⟩ := Batch.exists_file_of_readInput hread
          have hplace := hm.tree.symm.resolve hresolve
          rcases hm.wrote_or_kept (hnames.input hp hplace) with ⟨j, o, hw, hwritten⟩ | ⟨-, hkept⟩
          · obtain ⟨q, -, -, hjudge'⟩ := hw.due
            obtain ⟨-, -, rendering, hprepare', rfl⟩ := Batch.judge_eq_inr_iff.mp hjudge'
            obtain ⟨f, hf⟩ := Batch.rendered_of_rendering hprepare' p
            rw [Batch.prepare_of_file haccepts hresolve hwritten, hf] at hprepare
            exact nomatch hprepare
          · have hsame : b.accepts p = true → ∀ place', store.resolve p.text.toList = .ok place' →
                m.store.get? place' = store.get? place' := by
              intro _ place' hplace'
              cases hplace.symm.trans hplace'
              exact hkept
            rcases Batch.judge_agrees hm.tree hsame with heq | ⟨f, g, -, hg⟩
            · rw [Batch.convert_of_inl (heq.trans hjudge)]
            · exact nomatch hjudge.symm.trans hg

end Course

/-! ## Reports -/

/-- Each report of a path that was passed over as claimed has an earlier one, of a path with the same output,
    that was dealt with to the end. -/
def Batch.ServesClaims (b : Batch) (reports : List Report) : Prop :=
  ∀ (i : Nat) (p : Path), reports[i]? = some ⟨p, .skipped .claimed⟩ →
    ∃ j < i, ∃ q outcome, reports[j]? = some ⟨q, outcome⟩ ∧
      (b.outputPath q).same (b.outputPath p) = true ∧ outcome.Processed

namespace Pool

variable {b : Batch} {fresh : Place → Prop} {paths : List Path} {store : FileStore} {workers : Nat}
  {pool : Pool} {i : Nat} {p : Path}

/-- What was sent stays sent. -/
theorem Steps.sent_subset {cancelled : Bool} {c d : Pool} (h : Steps b cancelled fresh paths c d) :
    c.shared.sent ⊆ d.shared.sent := by
  induction h with
  | refl => exact List.Subset.refl _
  | tail _ hstep ih =>
      cases hstep with
      | step hstep =>
          cases hstep with
          | send => exact List.Subset.trans ih (List.subset_append_left _ _)
          | take _ | stop _ | consider | write _ | conclude => exact ih

/-- When all workers are done, each path has a report of an outcome that it came to. -/
theorem came_of_finished (hvalid : b.settings.validate = .ok ()) (hnames : FreshNames fresh b store paths)
    (hworkers : 0 < workers) (hsteps : Steps b false fresh paths (start store workers) pool)
    (hfinished : pool.Finished) (hp : paths[i]? = some p) :
    ∃ outcome, (pool.reports paths.length)[i]? = some ⟨p, outcome⟩ ∧
      Course.Came b fresh (fun _ => True) paths store i p (.settled outcome) := by
  obtain ⟨c, hcourse, -, -, -, hreports⟩ := course_of_finished hworkers hsteps.run hfinished
  obtain ⟨outcome, hphase, hreport⟩ := hreports i p hp
  exact ⟨outcome, hreport, hphase ▸ hcourse.came hvalid hnames hp⟩

/-- A path that has nothing to write alone is reported so in some run: the one in which it is considered before
    any output is written. -/
theorem exists_run_reporting (hworkers : 0 < workers) (hp : paths[i]? = some p)
    (hclaim : b.isClaimed (paths.take i) p = false) {outcome : Outcome}
    (hjudge : (b.judge store p).value = .inl outcome) :
    ∃ pool, Steps b false fresh paths (start store workers) pool ∧ pool.Finished ∧
      (pool.reports paths.length)[i]? = some ⟨p, outcome⟩ := by
  obtain ⟨k, sent, hheld⟩ := exists_start_holding hworkers store hp
  have hconsider : Steps b false fresh paths
      ⟨⟨store, i + 1, sent⟩, .holding i p :: List.replicate k .free⟩
      ⟨⟨store, i + 1, sent⟩, .after i p (b.consider false store (paths.take i) p).value ::
        List.replicate k .free⟩ := .front _ .consider
  rw [Batch.value_consider hclaim, hjudge] at hconsider
  have hsend : Steps b false fresh paths
      ⟨⟨store, i + 1, sent⟩, .reporting i ⟨p, outcome⟩ :: List.replicate k .free⟩
      ⟨⟨store, i + 1, sent ++ [(i, ⟨p, outcome⟩)]⟩, .free :: List.replicate k .free⟩ := .front _ .send
  obtain ⟨pool, hdone, -, hfinished⟩ :=
    exists_finished_front ⟨store, i + 1, sent ++ [(i, ⟨p, outcome⟩)]⟩ (w := .free) trivial k
  have hsteps := hheld.trans (hconsider.trans (hsend.trans hdone))
  obtain ⟨c, -, hfollows⟩ := follows_run hsteps.run
  refine ⟨pool, hsteps, hfinished,
    report_of_sent hfollows hfinished (hsteps.run.workers_ne_nil hworkers) ?_⟩
  apply hdone.sent_subset
  exact List.mem_append_right _ (List.mem_singleton_self _)

/-! ## When claims serve somebody -/

/-- **A claim is in favour of a path that is dealt with to the end, or that is its own output.** Take valid
    settings and any number of workers. In every run a path that is passed over as claimed has an earlier one with
    the same output, which is the first with it and is dealt with to the end, unless it is its own output and is
    skipped for that. Every run is spared the exception iff no path is passed over in favour of one that would
    alone be skipped as its own output. -/
theorem claims_serve_iff (hvalid : b.settings.validate = .ok ()) (hnames : FreshNames fresh b store paths)
    (hworkers : 0 < workers) :
    (∀ pool, Steps b false fresh paths (start store workers) pool → pool.Finished →
      ∀ i p, (pool.reports paths.length)[i]? = some ⟨p, .skipped .claimed⟩ →
        ∃ j q outcome, b.Favours paths j q i p ∧ (pool.reports paths.length)[j]? = some ⟨q, outcome⟩ ∧
          (outcome.Processed ∨ outcome = .skipped .ownInput ∧ (b.outputPath q).same q = true)) ∧
    ((∀ pool, Steps b false fresh paths (start store workers) pool → pool.Finished →
        b.ServesClaims (pool.reports paths.length)) ↔
      ∀ i p j q, paths[i]? = some p → b.Shadowed paths i p → b.Favours paths j q i p →
        (b.convert store q).value.1 ≠ .skipped .ownInput) := by
  have hshadowed : ∀ pool, Steps b false fresh paths (start store workers) pool → pool.Finished →
      ∀ i p, (pool.reports paths.length)[i]? = some ⟨p, .skipped .claimed⟩ →
        paths[i]? = some p ∧ b.Shadowed paths i p := by
    intro pool hsteps hfinished i p hreport
    have hp := getElem?_of_report hworkers hsteps.run hfinished hreport
    obtain ⟨outcome, hreport', hcame⟩ := came_of_finished hvalid hnames hworkers hsteps hfinished hp
    cases hreport.symm.trans hreport'
    exact ⟨hp, hcame.shadowed_of_claimed⟩
  refine ⟨fun pool hsteps hfinished i p hreport => ?_, fun h i p j q hp hclaimed hfavours halone => ?_,
    fun h pool hsteps hfinished i p hreport => ?_⟩
  · obtain ⟨-, hclaimed⟩ := hshadowed pool hsteps hfinished i p hreport
    obtain ⟨j, q, hfavours⟩ := hclaimed.exists_favoured
    obtain ⟨outcome, hreport', hcame⟩ :=
      came_of_finished hvalid hnames hworkers hsteps hfinished hfavours.get
    exact ⟨j, q, outcome, hfavours, hreport',
      hcame.processed_or hclaimed.1 hfavours.accepts hfavours.unshadowed⟩
  · -- there is a run in which `q` is considered first, and in that run nobody is served by its claim
    obtain ⟨pool, hsteps, hfinished, hown⟩ : ∃ pool,
        Steps b false fresh paths (start store workers) pool ∧ pool.Finished ∧
          (pool.reports paths.length)[j]? = some ⟨q, .skipped .ownInput⟩ :=
      exists_run_reporting hworkers hfavours.get (Batch.isClaimed_eq_false_iff.mpr hfavours.unshadowed)
        (Batch.judge_of_skipped halone)
    obtain ⟨outcome, hreport, hcame⟩ := came_of_finished hvalid hnames hworkers hsteps hfinished hp
    rw [hcame.claimed_of_shadowed hclaimed] at hreport
    obtain ⟨k, -, r, outcome', hreport', hsame, hprocessed⟩ := h pool hsteps hfinished i p hreport
    have hr := getElem?_of_report hworkers hsteps.run hfinished hreport'
    obtain ⟨_, hreport'', hcame'⟩ := came_of_finished hvalid hnames hworkers hsteps hfinished hr
    cases hreport'.symm.trans hreport''
    obtain ⟨haccepts, hunshadowed⟩ := hcame'.of_processed hprocessed
    have hkj : k = j := hfavours.index_eq hclaimed.1 hr haccepts hunshadowed hsame
    rw [hkj] at hreport'
    cases hown.symm.trans hreport'
    exact hprocessed
  · obtain ⟨hp, hclaimed⟩ := hshadowed pool hsteps hfinished i p hreport
    obtain ⟨j, q, hfavours⟩ := hclaimed.exists_favoured
    obtain ⟨outcome, hreport', hcame⟩ :=
      came_of_finished hvalid hnames hworkers hsteps hfinished hfavours.get
    refine ⟨j, hfavours.lt, q, outcome, hreport', hfavours.same, ?_⟩
    rcases hcame.processed_or hclaimed.1 hfavours.accepts hfavours.unshadowed with
      hprocessed | ⟨rfl, -⟩
    · exact hprocessed
    · exact absurd (hcame.ownInput_alone hnames hfavours.get) (h i p j q hp hclaimed hfavours)

/-! ### A file and the output that goes with it -/

/-- Outputs go to files and replace nothing. -/
def replacingNothing : Batch := ⟨{ Settings.default with overwrite := false }, .files⟩

/-- A file, and another one under the name of its output. -/
def withOwnOutput : FileStore :=
  ⟨["w"], [(["w"], .directory), (["w", "sel.txt"], .file "model=SECOND\n".toUTF8),
    (["w", "sel.yaml"], .file "model=FIRST\n".toUTF8)]⟩

theorem freshNames_withOwnOutput :
    FreshNames StagingPlace replacingNothing withOwnOutput [⟨"sel.txt"⟩, ⟨"sel.yaml"⟩] := by
  have hplain : withOwnOutput.PlainNames ["w"]
      (replacingNothing.involved [⟨"sel.txt"⟩, ⟨"sel.yaml"⟩]) := by
    intro p hp
    simp only [Batch.involved, List.map_cons, List.map_nil, List.cons_append, List.nil_append,
      List.mem_cons, List.not_mem_nil, or_false] at hp
    rcases hp with rfl | rfl | rfl | rfl <;> exact ⟨rfl, by decide⟩
  exact hplain.freshNames

/-- Given first, the file is dealt with to the end, and the other one is passed over in its favour. -/
theorem claims_serve_iff_output_last :
    replacingNothing.settings.validate = .ok () ∧
      FreshNames StagingPlace replacingNothing withOwnOutput [⟨"sel.txt"⟩, ⟨"sel.yaml"⟩] ∧
      replacingNothing.Shadowed [⟨"sel.txt"⟩, ⟨"sel.yaml"⟩] 1 ⟨"sel.yaml"⟩ ∧
      ∀ pool, Steps replacingNothing false StagingPlace [⟨"sel.txt"⟩, ⟨"sel.yaml"⟩]
        (start withOwnOutput 2) pool → pool.Finished → replacingNothing.ServesClaims (pool.reports 2) := by
  have hserve := (claims_serve_iff (b := replacingNothing) rfl freshNames_withOwnOutput
    (show 0 < 2 by decide)).2.mpr
  refine ⟨rfl, freshNames_withOwnOutput, ⟨rfl, rfl, ⟨"sel.txt"⟩, List.mem_cons_self, rfl, rfl⟩,
    hserve ?_⟩
  intro i p j q hp _ hfavours halone
  -- only the second path is passed over, and the first is not its own output
  have hj : j = 0 := by
    have hlt := hfavours.lt
    have hi : i < 2 := (List.getElem?_eq_some_iff.mp hp).1
    omega
  have hget := hfavours.get
  rw [hj] at hget
  cases hget
  cases Batch.judged_of_judge (Batch.judge_of_skipped halone) with
  | ownInput _ _ hsame => exact absurd hsame (by decide)

/-- Given last, the file is passed over in favour of one that is skipped as its own output: nobody is served. -/
theorem run_serves_nobody :
    replacingNothing.settings.validate = .ok () ∧ replacingNothing.sink = .files ∧
      ∃ pool, Steps replacingNothing false StagingPlace [⟨"sel.yaml"⟩, ⟨"sel.txt"⟩]
        (start withOwnOutput 1) pool ∧ pool.Finished ∧
        pool.reports 2 =
          [⟨⟨"sel.yaml"⟩, .skipped .ownInput⟩, ⟨⟨"sel.txt"⟩, .skipped .claimed⟩] ∧
        ¬ replacingNothing.ServesClaims (pool.reports 2) := by
  obtain ⟨pool, hsteps, hfinished, hreports, -⟩ :=
    run_steps replacingNothing false stagingPlace_freeName withOwnOutput [⟨"sel.yaml"⟩, ⟨"sel.txt"⟩]
  have hprepare : (replacingNothing.prepare withOwnOutput ⟨"sel.yaml"⟩).value =
      .inr "model: \"FIRST\"\n" :=
    (Batch.prepare_of_file rfl
      (show withOwnOutput.resolve "sel.yaml".toList = .ok ["w", "sel.yaml"] from rfl) rfl).trans
        (by decide +kernel)
  have hjudge : (replacingNothing.judge withOwnOutput ⟨"sel.yaml"⟩).value =
      .inl (.skipped .ownInput) := by
    rw [Batch.value_judge, hprepare]
    rfl
  have hfirst : (replacingNothing.attend false withOwnOutput [] ⟨"sel.yaml"⟩).value =
      (.skipped .ownInput, withOwnOutput) := by
    rw [Batch.attend_of_unclaimed rfl withOwnOutput, Batch.convert_of_inl hjudge]
  have hsecond : (replacingNothing.attend false withOwnOutput [⟨"sel.yaml"⟩] ⟨"sel.txt"⟩).value =
      (.skipped .claimed, withOwnOutput) := Batch.attend_of_claimed rfl withOwnOutput
  have hrun : (replacingNothing.run false withOwnOutput [⟨"sel.yaml"⟩, ⟨"sel.txt"⟩]).value =
      ([⟨⟨"sel.yaml"⟩, .skipped .ownInput⟩, ⟨⟨"sel.txt"⟩, .skipped .claimed⟩], withOwnOutput) := by
    simp only [Batch.run, Batch.runFrom, Logged.value_bind, hfirst, List.nil_append, hsecond,
      Logged.value_pure]
  rw [hrun] at hreports
  have hboth : pool.reports 2 =
      [⟨⟨"sel.yaml"⟩, .skipped .ownInput⟩, ⟨⟨"sel.txt"⟩, .skipped .claimed⟩] := hreports
  refine ⟨rfl, rfl, pool, hsteps, hfinished, hboth, ?_⟩
  rw [hboth]
  intro hserves
  obtain ⟨j, hj, q, outcome, hreport, -, hprocessed⟩ := hserves 1 ⟨"sel.txt"⟩ rfl
  rw [Nat.lt_one_iff.mp hj] at hreport
  cases hreport
  exact hprocessed

end Pool

end FacetQuery

import FacetQuery.Proofs.Batch.Invariant
import FacetQuery.Proofs.Batch.Progress

/-!
# `FacetQuery.Proofs.Batch.Schedule` — a batch comes to the same under every schedule

Where paths that differ name different files, no two paths of a batch get in each other's way
(`Course.Met.absurd`). Say path `i` names the place where path `j` writes. Then `i` is its own output, or has
its output there; either way both have one output, and the later of the two is passed over, so one of them
never comes to read or to write. So every path that is not passed over comes to what it comes to alone, and
the files in the end are those of the beginning with the written outputs in them (`Batch.Meets`), whatever
the number of workers and the order of their steps (`Pool.every_run_meets`).

## Contents
- `FileStore.Distinguishes` and `FileStore.SameFiles`, what is asked of the files.
- `Batch.Shadowed`, the paths that are passed over, and `Batch.Meets`, what a batch must come to.
- `Pool.every_run_meets`.
-/

namespace FacetQuery

/-! ## What is asked of the files -/

/-- Paths that differ name different files: what two of them name is no file but a directory. -/
def FileStore.Distinguishes (s : FileStore) (ps : List Path) : Prop :=
  ∀ p ∈ ps, ∀ q ∈ ps, ∀ place, s.resolve p.text.toList = .ok place →
    s.resolve q.text.toList = .ok place → p.same q = true ∨ s.get? place = some .directory

/-- Two stores with the same directories and with files at the same places; what the files hold may
    differ. -/
structure FileStore.SameFiles (s t : FileStore) : Prop where
  tree : FileStore.SameTree s t
  free : ∀ q, s.get? q = none ↔ t.get? q = none

theorem FileStore.Distinguishes.of_sameTree {s t : FileStore} {ps : List Path}
    (h : s.Distinguishes ps) (htree : FileStore.SameTree s t) : t.Distinguishes ps := by
  intro p hp q hq place hresolve hresolve'
  rcases h p hp q hq place (htree.symm.resolve hresolve) (htree.symm.resolve hresolve') with
    hsame | hdir
  · exact .inl hsame
  · exact .inr ((htree.directories place).mp hdir)

theorem FreshNames.of_sameTree {fresh : Place → Prop} {b : Batch} {s t : FileStore}
    {paths : List Path} (h : FreshNames fresh b s paths) (htree : FileStore.SameTree s t) :
    FreshNames fresh b t paths :=
  ⟨h.left, fun p hp place hresolve => h.unnamed p hp place (htree.symm.resolve hresolve)⟩

/-- Paths that are names in one directory, none of them with a dot in front. -/
def FileStore.PlainNames (s : FileStore) (dir : Place) (ps : List Path) : Prop :=
  ∀ p ∈ ps, s.resolve p.text.toList = .ok (dir ++ [p.text]) ∧ p.text.toList.head? ≠ some '.'

theorem FileStore.PlainNames.distinguishes {s : FileStore} {dir : Place} {ps : List Path}
    (h : s.PlainNames dir ps) : s.Distinguishes ps := by
  intro p hp q hq place hresolve hresolve'
  have hplace := Except.ok.inj ((h p hp).1.symm.trans hresolve)
  have hplace' := Except.ok.inj ((h q hq).1.symm.trans hresolve')
  have htext : p.text = q.text := by
    have hlast := congrArg List.getLast? (hplace.trans hplace'.symm)
    rw [List.getLast?_concat, List.getLast?_concat] at hlast
    exact Option.some.inj hlast
  left
  rw [show p = q from congrArg Path.mk htext]
  exact beq_self_eq_true _

theorem FileStore.PlainNames.freshNames {b : Batch} {s : FileStore} {dir : Place}
    {paths : List Path} (h : s.PlainNames dir (b.involved paths)) :
    FreshNames StagingPlace b s paths := by
  refine freshNames_stagingPlace fun p hp place hresolve => ?_
  obtain ⟨hplain, hdot⟩ := h p hp
  rintro ⟨n, hn⟩
  rw [← Except.ok.inj (hplain.symm.trans hresolve), List.getLast?_concat] at hn
  apply hdot
  rw [Option.some.inj hn]
  simp [FileStore.stagingName]

theorem Path.same_comm (p q : Path) : p.same q = q.same p := BEq.comm

namespace Batch

variable {b : Batch} {struck : Nat → Prop} {paths : List Path} {store : FileStore}

/-! ## What a batch must come to -/

/-- Outputs are written, the path with this index has the extension that is asked for, and an earlier path
    that has it too has the same output. -/
def Shadowed (b : Batch) (paths : List Path) (i : Nat) (p : Path) : Prop :=
  b.sink = .files ∧ b.accepts p = true ∧
    ∃ q ∈ paths.take i, b.accepts q = true ∧ (b.outputPath q).same (b.outputPath p) = true

/-- The table of claims knows the shadowed paths. -/
theorem isClaimed_iff {i : Nat} {p : Path} :
    b.isClaimed (paths.take i) p = true ↔ b.Shadowed paths i p := by
  unfold isClaimed Shadowed
  by_cases hfiles : b.sink = .files
  · cases haccepts : b.accepts p with
    | false => simp [claim?, haccepts]
    | true =>
        have hclaim : b.claim? p = some (b.outputPath p) := if_pos ⟨hfiles, haccepts⟩
        simp only [hclaim, hfiles, true_and, List.any_eq_true, List.mem_filterMap]
        constructor
        · rintro ⟨o, ⟨q, hq, hqo⟩, hsame⟩
          unfold claim? at hqo
          split at hqo
          · next h => exact ⟨q, hq, h.2, Option.some.inj hqo ▸ hsame⟩
          · exact nomatch hqo
        · rintro ⟨q, hq, hacceptsq, hsame⟩
          exact ⟨b.outputPath q, ⟨q, hq, if_pos ⟨hfiles, hacceptsq⟩⟩, hsame⟩
  · simp [claim?, hfiles]

theorem isClaimed_eq_false_iff {i : Nat} {p : Path} :
    b.isClaimed (paths.take i) p = false ↔ ¬ b.Shadowed paths i p := by
  rw [← isClaimed_iff, Bool.not_eq_true]

/-- What a batch must come to, given as its reports and its files in the end. There is a report for each
    path, in order. A path that is shadowed is passed over; any other has the outcome that it has alone on the
    files before the batch, unless the system has refused to write its output. The files are those before the
    batch with the renderings of the written outputs in their places. -/
structure Meets (b : Batch) (struck : Nat → Prop) (store : FileStore) (paths : List Path)
    (reports : List Report) (final : FileStore) : Prop where
  complete : reports.map (·.path) = paths
  shadowed : ∀ i p, paths[i]? = some p → b.Shadowed paths i p →
    reports[i]? = some ⟨p, .skipped .claimed⟩
  alone : ∀ i p, paths[i]? = some p → ¬ b.Shadowed paths i p →
    ∃ outcome, reports[i]? = some ⟨p, outcome⟩ ∧
      (outcome.Agrees (b.convert store p).value.1 ∨ struck i ∧ ∃ f, outcome = .failed f)
  written : ∀ r ∈ reports, ∀ path, r.outcome = .written path →
    ∃ place rendering, store.resolve path.text.toList = .ok place ∧
      (b.prepare store r.path).value = .inr rendering ∧
      final.get? place = some (.file rendering.toUTF8)
  kept : ∀ place, (∀ r ∈ reports, ∀ path, r.outcome = .written path →
    store.resolve path.text.toList ≠ .ok place) → final.get? place = store.get? place

/-! ## Paths that differ -/

/-- Of two paths with one output that come to be read, one is shadowed. -/
theorem not_both_unclaimed {i j : Nat} {p q : Path} (hfiles : b.sink = .files) (hne : j ≠ i)
    (hp : paths[i]? = some p) (hq : paths[j]? = some q) (haccepts : b.accepts p = true)
    (haccepts' : b.accepts q = true) (hsame : (b.outputPath p).same (b.outputPath q) = true)
    (hclaim : b.isClaimed (paths.take i) p = false) (hclaim' : b.isClaimed (paths.take j) q = false) :
    False := by
  rcases Nat.lt_or_gt_of_ne hne with hlt | hlt
  · have hmem : q ∈ paths.take i :=
      List.mem_of_getElem? ((List.getElem?_take_of_lt hlt).trans hq)
    apply isClaimed_eq_false_iff.mp hclaim
    exact ⟨hfiles, haccepts, q, hmem, haccepts', Path.same_comm _ _ ▸ hsame⟩
  · have hmem : p ∈ paths.take j :=
      List.mem_of_getElem? ((List.getElem?_take_of_lt hlt).trans hp)
    apply isClaimed_eq_false_iff.mp hclaim'
    exact ⟨hfiles, haccepts', p, hmem, haccepts, hsame⟩

end Batch

section Apart

variable {b : Batch} {fresh : Place → Prop} {struck : Nat → Prop} {paths : List Path}
  {store : FileStore} {c : Course}

/-- Where paths that differ name different files, no path names a place that another path writes. -/
theorem Course.Met.absurd (hvalid : b.settings.validate = .ok ())
    (hapart : store.Distinguishes (b.involved paths)) {i : Nat} {p : Path}
    (hp : paths[i]? = some p) (hclaim : b.isClaimed (paths.take i) p = false)
    (hmet : c.Met b paths store i p) : False := by
  obtain ⟨haccepts, j, o, place, hne, hw, hnamed⟩ := hmet
  obtain ⟨q, hq, hclaim', hjudge⟩ := hw.due
  have hfiles := (Batch.judge_eq_inr_iff.mp hjudge).1
  have hfile := hw.lands.not_directory
  have hplace : store.resolve (b.outputPath q).text.toList = .ok place := by
    rw [← hw.due.path_eq hq]
    exact hw.lands.resolve
  have hinput : p ∈ b.involved paths := List.mem_append_left _ (List.mem_of_getElem? hp)
  have houtput : ∀ {k r}, paths[k]? = some r → b.outputPath r ∈ b.involved paths :=
    fun hr => List.mem_append_right _ (List.mem_map.mpr ⟨_, List.mem_of_getElem? hr, rfl⟩)
  have hsame : (b.outputPath p).same (b.outputPath q) = true := by
    rcases hnamed with hresolve | hresolve
    · -- the path itself leads there, so it is its own output
      rw [Batch.outputPath_eq_self_of_meets hvalid hjudge hw.lands hresolve]
      exact (hapart p hinput _ (houtput hq) place hresolve hplace).resolve_right hfile
    · exact (hapart _ (houtput hp) _ (houtput hq) place hresolve hplace).resolve_right hfile
  -- both have this one output, so the later of the two would be shadowed by the earlier
  exact Batch.not_both_unclaimed hfiles hne hp hq haccepts (Batch.accepts_of_judge hjudge) hsame
    hclaim hclaim'

/-- Then a path that is not claimed gets the outcome that it gets alone, or the system has refused. -/
theorem Course.Right.agrees (hvalid : b.settings.validate = .ok ())
    (hapart : store.Distinguishes (b.involved paths)) {i : Nat} {p : Path} {outcome : Outcome}
    (hp : paths[i]? = some p) (hclaim : b.isClaimed (paths.take i) p = false)
    (h : c.Right b struck paths store i p outcome) :
    outcome.Agrees (b.convert store p).value.1 ∨ struck i ∧ ∃ f, outcome = .failed f := by
  cases h with
  | claimed h => exact nomatch hclaim.symm.trans h
  | alone _ hagrees => exact .inl hagrees
  | struck _ hstruck => exact .inr ⟨hstruck, _, rfl⟩
  | met _ hmet _ => exact (hmet.absurd hvalid hapart hp hclaim).elim

/-- A path that was written has written what it has to write alone. -/
theorem Course.Right.wrote {i : Nat} {p path : Path} (hp : paths[i]? = some p)
    (hphase : c.phase i = .settled (.written path))
    (h : c.Right b struck paths store i p (.written path)) :
    ∃ o place, c.Wrote b paths store i o place ∧ o.path = path := by
  cases h with
  | met _ _ hout => exact absurd rfl (hout path)
  | alone hclaim hagrees =>
      obtain ⟨o, place, hjudge, hpath, hlands⟩ :=
        Batch.lands_of_convert hagrees.symm.eq_written
      refine ⟨o, place, ⟨⟨p, hp, hclaim, hjudge⟩, hlands, ?_⟩, hpath⟩
      rw [hphase]
      exact hpath.symm

/-- Then no two paths write to one place. -/
theorem Course.Wrote.index_unique (hvalid : b.settings.validate = .ok ())
    (hapart : store.Distinguishes (b.involved paths)) {i j : Nat} {o o' : Output} {place : Place}
    (h : c.Wrote b paths store i o place) (h' : c.Wrote b paths store j o' place) : j = i := by
  apply Classical.byContradiction
  intro hne
  obtain ⟨p, hp, hclaim, hjudge⟩ := h.due
  have hmet : c.Met b paths store i p := by
    refine ⟨Batch.accepts_of_judge hjudge, j, o', place, hne, h', .inr ?_⟩
    rw [← h.due.path_eq hp]
    exact h.lands.resolve
  exact hmet.absurd hvalid hapart hp hclaim

end Apart

/-! ## Runs -/

namespace Pool

section Finished

variable {b : Batch} {fresh : Place → Prop} {struck : Nat → Prop} {paths : List Path}
  {store : FileStore} {workers : Nat} {pool : Pool}

/-- When all workers are done, the pool is at the end of a course in which each path is settled, and each path
    has a report of its outcome. -/
theorem course_of_finished (hworkers : 0 < workers)
    (hrun : Run b false fresh struck paths (start store workers) pool) (hfinished : pool.Finished) :
    ∃ c : Course, Course.Steps b false fresh struck paths (Course.start store) c ∧
      c.store = pool.shared.store ∧ (∀ i, paths[i]? = none → c.phase i = .waiting) ∧
      (pool.reports paths.length).length = paths.length ∧
      ∀ i p, paths[i]? = some p → ∃ outcome, c.phase i = .settled outcome ∧
        (pool.reports paths.length)[i]? = some ⟨p, outcome⟩ := by
  obtain ⟨c, hsteps, hfollows⟩ := follows_run hrun
  obtain ⟨hlen, hreports⟩ := reports_of_finished hfollows hfinished (hrun.workers_ne_nil hworkers)
  refine ⟨c, hsteps, hfollows.store.symm, fun i hi => ?_, hlen, hreports⟩
  refine hfollows.accounts.waiting i fun hlt => ?_
  exact absurd hlt.2 (Nat.not_lt_of_le (List.getElem?_eq_none_iff.mp hi))

/-- Then the report with an index is of the path with that index. -/
theorem getElem?_of_report (hworkers : 0 < workers)
    (hrun : Run b false fresh struck paths (start store workers) pool) (hfinished : pool.Finished)
    {i : Nat} {r : Report} (h : (pool.reports paths.length)[i]? = some r) :
    paths[i]? = some r.path := by
  obtain ⟨c, -, -, -, hlen, hreports⟩ := course_of_finished hworkers hrun hfinished
  have hlt : i < paths.length := hlen ▸ (List.getElem?_eq_some_iff.mp h).1
  obtain ⟨outcome, -, hreport⟩ := hreports i _ (List.getElem?_eq_getElem hlt)
  cases h.symm.trans hreport
  exact List.getElem?_eq_getElem hlt

/-- When all workers are done, each path is settled with an outcome that it may get, and has a report of
    it; and the invariant holds. -/
theorem settled_of_finished (hvalid : b.settings.validate = .ok ())
    (hnames : FreshNames fresh b store paths) (hworkers : 0 < workers)
    (hrun : Run b false fresh struck paths (start store workers) pool) (hfinished : pool.Finished) :
    ∃ c : Course, c.store = pool.shared.store ∧ c.Invariant b struck paths store fresh ∧
      (∀ i, paths[i]? = none → c.phase i = .waiting) ∧
      (pool.reports paths.length).length = paths.length ∧
      ∀ i p, paths[i]? = some p → ∃ outcome, c.phase i = .settled outcome ∧
        (pool.reports paths.length)[i]? = some ⟨p, outcome⟩ ∧
        c.Right b struck paths store i p outcome := by
  obtain ⟨c, hsteps, hstore, hwaiting, hlen, hreports⟩ := course_of_finished hworkers hrun hfinished
  have hinv := hsteps.invariant hvalid hnames
  refine ⟨c, hstore, hinv, hwaiting, hlen, fun i p hp => ?_⟩
  obtain ⟨outcome, hphase, hreport⟩ := hreports i p hp
  have hsound := hinv.sound i p hp
  rw [hphase] at hsound
  cases hsound with
  | settled hright => exact ⟨outcome, hphase, hreport, hright⟩

/-- A run that has come to its end meets what the batch must come to. -/
theorem meets_of_finished (hvalid : b.settings.validate = .ok ())
    (hapart : store.Distinguishes (b.involved paths)) (hnames : FreshNames fresh b store paths)
    (hworkers : 0 < workers) (hrun : Run b false fresh struck paths (start store workers) pool)
    (hfinished : pool.Finished) :
    b.Meets struck store paths (pool.reports paths.length) pool.shared.store := by
  obtain ⟨c, hstore, hinv, hwaiting, hlen, hsettled⟩ :=
    settled_of_finished hvalid hnames hworkers hrun hfinished
  have hreport : ∀ r ∈ pool.reports paths.length, ∃ i, paths[i]? = some r.path ∧
      c.phase i = .settled r.outcome ∧ c.Right b struck paths store i r.path r.outcome := by
    rintro ⟨q, outcome⟩ hr
    obtain ⟨i, hi⟩ := List.getElem?_of_mem hr
    have hp : paths[i]? = some q := getElem?_of_report hworkers hrun hfinished hi
    obtain ⟨_, hphase, hreport, hright⟩ := hsettled i q hp
    cases hi.symm.trans hreport
    exact ⟨i, hp, hphase, hright⟩
  rw [← hstore]
  refine ⟨?_, fun i p hp hshadowed => ?_, fun i p hp hshadowed => ?_, fun r hr path hpath => ?_,
    fun place hplace => ?_⟩
  · apply Report.map_path_eq hlen
    intro i p hp
    obtain ⟨outcome, -, hreport, -⟩ := hsettled i p hp
    exact ⟨outcome, hreport⟩
  · obtain ⟨outcome, -, hreport, hright⟩ := hsettled i p hp
    have hclaim := Batch.isClaimed_iff.mpr hshadowed
    cases hright with
    | claimed _ => exact hreport
    | alone h _ => exact nomatch hclaim.symm.trans h
    | struck h _ => exact nomatch hclaim.symm.trans h
    | met h _ _ => exact nomatch hclaim.symm.trans h
  · obtain ⟨outcome, -, hreport, hright⟩ := hsettled i p hp
    have hclaim := Batch.isClaimed_eq_false_iff.mpr hshadowed
    exact ⟨outcome, hreport, hright.agrees hvalid hapart hp hclaim⟩
  · obtain ⟨i, hp, hphase, hright⟩ := hreport r hr
    rw [hpath] at hphase hright
    obtain ⟨o, place, hw, rfl⟩ := hright.wrote hp hphase
    rcases hinv.wrote_or_kept (hw.not_fresh hnames) with ⟨j, o', hw', hget⟩ | ⟨hnone, -⟩
    · -- no other path has written to this place, so it is this path's rendering that stands there
      cases hw.index_unique hvalid hapart hw'
      cases hw.due.unique hw'.due
      obtain ⟨-, -, rendering, hprepare, rfl⟩ := Batch.judge_eq_inr_iff.mp (hw.due.judged hp).2
      exact ⟨place, rendering, hw.lands.resolve, hprepare, hget⟩
    · exact absurd hw (hnone i o)
  · cases hinv.explained place with
    | kept _ hget => exact hget
    | staged i bytes hstaged =>
        cases hp : paths[i]? with
        | none =>
            rw [hwaiting i hp] at hstaged
            exact nomatch hstaged
        | some p =>
            obtain ⟨outcome, hphase, -, -⟩ := hsettled i p hp
            rw [hphase] at hstaged
            exact nomatch hstaged
    | wrote i o hw _ =>
        obtain ⟨p, hp, -, -⟩ := hw.due
        obtain ⟨outcome, hphase, hreport, -⟩ := hsettled i p hp
        have hdone := hw.done
        rw [hphase] at hdone
        cases outcome with
        | written path =>
            have hpath : path = o.path := hdone
            have hmem := List.mem_of_getElem? hreport
            exact absurd hw.lands.resolve (hpath ▸ hplace _ hmem path rfl)
        | collected _ | empty | failed _ | skipped _ | cancelled => exact hdone.elim

end Finished

end Pool

/-! ## The contents of other files -/

/-- What a path comes to alone is the same in two stores with files at the same places, if the file that it
    names is the same. -/
theorem Batch.convert_agrees {b : Batch} {s t : FileStore} {p : Path} (h : s.SameFiles t)
    (hsame : ∀ place, s.resolve p.text.toList = .ok place → t.get? place = s.get? place) :
    (b.convert s p).value.1.Agrees (b.convert t p).value.1 := by
  have hfree : ∀ {place}, s.get? place = none → t.get? place = none := (h.free _).mp
  rcases Batch.judge_agrees h.tree fun _ => hsame with heq | ⟨f, g, hf, hg⟩
  · cases hjudge : (b.judge s p).value with
    | inl outcome =>
        rw [convert_of_inl hjudge, convert_of_inl (heq.symm.trans hjudge)]
        exact .refl outcome
    | inr o =>
        have hjudge' := heq.symm.trans hjudge
        by_cases hlands : ∃ place, o.Lands s place
        · obtain ⟨place, hplace⟩ := hlands
          have hplace' := hplace.of_sameTree h.tree fun ho =>
            hfree ((FileStore.get?_of_target hplace.moved).2 ho)
          rw [convert_of_lands hjudge hplace, convert_of_lands hjudge' hplace']
          exact .refl _
        · have hnowhere : ∀ place, ¬ o.Lands t place := fun place hplace =>
            hlands ⟨place, hplace.of_sameTree h.tree.symm fun ho =>
              (h.free place).mpr ((FileStore.get?_of_target hplace.moved).2 ho)⟩
          obtain ⟨f, hf⟩ := convert_of_not_lands hjudge (not_exists.mp hlands)
          obtain ⟨g, hg⟩ := convert_of_not_lands hjudge' hnowhere
          rw [hf, hg]
          exact Outcome.agrees_failed f g
  · rw [convert_of_inl hf, convert_of_inl hg]
    exact Outcome.agrees_failed f g

/-! ## Every schedule -/

namespace Pool

/-- **Every run of a batch comes to its end and meets what the batch must come to.** Take valid settings, paths
    of which those that differ name different files, and any number of workers. No run goes on forever; from
    every point of it the workers can all get done; and when they are, the reports and the files are what they
    must be, whatever the order of the steps was. What a path comes to depends neither on what the files of
    other paths hold, nor on what becomes of the other paths: two runs over files that differ elsewhere, with
    any numbers of workers and with refusals of the system at other paths, agree on it. -/
theorem every_run_meets {b : Batch} {fresh : Place → Prop} {paths : List Path} {store : FileStore}
    (hvalid : b.settings.validate = .ok ()) (hapart : store.Distinguishes (b.involved paths))
    (hnames : FreshNames fresh b store paths) {workers : Nat} (hworkers : 0 < workers)
    (struck : Nat → Prop) :
    (∀ run : Nat → Pool, run 0 = start store workers →
      ¬ ∀ k, Step b false fresh paths (run k) (run (k + 1))) ∧
    (∀ pool, Run b false fresh struck paths (start store workers) pool →
      ∃ last, Run b false fresh struck paths pool last ∧ last.Finished) ∧
    ∀ pool, Run b false fresh struck paths (start store workers) pool → pool.Finished →
      b.Meets struck store paths (pool.reports paths.length) pool.shared.store ∧
      ∀ (store' : FileStore) (workers' : Nat) (struck' : Nat → Prop) (pool' : Pool),
        store.SameFiles store' → 0 < workers' →
        Run b false fresh struck' paths (start store' workers') pool' → pool'.Finished →
        ∀ i p, paths[i]? = some p → ¬ struck i → ¬ struck' i →
          (∀ place, store.resolve p.text.toList = .ok place →
            store'.get? place = store.get? place) →
          ∃ outcome outcome', (pool.reports paths.length)[i]? = some ⟨p, outcome⟩ ∧
            (pool'.reports paths.length)[i]? = some ⟨p, outcome'⟩ ∧ outcome.Agrees outcome' := by
  refine ⟨fun run _ => run_ends run, fun pool _ => exists_finished hnames.left pool,
    fun pool hrun hfinished => ?_⟩
  have hmeets := meets_of_finished hvalid hapart hnames hworkers hrun hfinished
  refine ⟨hmeets, fun store' workers' struck' pool' hfiles hworkers' hrun' hfinished' i p hp hi hi'
    hsame => ?_⟩
  have hmeets' := meets_of_finished hvalid (hapart.of_sameTree hfiles.tree)
    (hnames.of_sameTree hfiles.tree) hworkers' hrun' hfinished'
  by_cases hshadowed : b.Shadowed paths i p
  · exact ⟨_, _, hmeets.shadowed i p hp hshadowed, hmeets'.shadowed i p hp hshadowed, .refl _⟩
  · obtain ⟨outcome, hreport, hagrees⟩ := hmeets.alone i p hp hshadowed
    obtain ⟨outcome', hreport', hagrees'⟩ := hmeets'.alone i p hp hshadowed
    have halone := hagrees.resolve_right fun h => hi h.1
    have halone' := hagrees'.resolve_right fun h => hi' h.1
    exact ⟨outcome, outcome', hreport, hreport',
      halone.trans ((Batch.convert_agrees hfiles hsame).trans halone'.symm)⟩

/-- A file with a single line under the default settings. -/
theorem prepare_one_line {store : FileStore}
    (hresolve : store.resolve "sel.txt".toList = .ok ["w", "sel.txt"])
    (hfile : store.get? ["w", "sel.txt"] = some (.file "model=FIRST\n".toUTF8)) :
    (Batch.prepare ⟨Settings.default, .files⟩ store ⟨"sel.txt"⟩).value = .inr "model: \"FIRST\"\n" :=
  (Batch.prepare_of_file rfl hresolve hfile).trans (by decide +kernel)

/-- Two workers with two files that have one output: the first of them is written, the second passed over. -/
theorem every_run_meets_shared_output :
    ∃ pool, Run ⟨Settings.default, .files⟩ false StagingPlace (fun _ => False)
        [⟨"sel.txt"⟩, ⟨"sel.sel"⟩]
        (start ⟨["w"], [(["w"], .directory), (["w", "sel.txt"], .file "model=FIRST\n".toUTF8),
          (["w", "sel.sel"], .file "model=SECOND\n".toUTF8)]⟩ 2) pool ∧
      pool.Finished ∧
      pool.reports 2 =
        [⟨⟨"sel.txt"⟩, .written ⟨"sel.yaml"⟩⟩, ⟨⟨"sel.sel"⟩, .skipped .claimed⟩] ∧
      pool.shared.store.get? ["w", "sel.yaml"] =
        some (.file "model: \"FIRST\"\n".toUTF8) := by
  generalize hstore : FileStore.mk ["w"] [(["w"], .directory),
    (["w", "sel.txt"], .file "model=FIRST\n".toUTF8),
    (["w", "sel.sel"], .file "model=SECOND\n".toUTF8)] = store
  have hplain : store.PlainNames ["w"]
      (Batch.involved ⟨Settings.default, .files⟩ [⟨"sel.txt"⟩, ⟨"sel.sel"⟩]) := by
    intro p hp
    simp only [Batch.involved, List.map_cons, List.map_nil, List.cons_append, List.nil_append,
      List.mem_cons, List.not_mem_nil, or_false] at hp
    subst hstore
    rcases hp with rfl | rfl | rfl | rfl <;> exact ⟨rfl, by decide⟩
  obtain ⟨-, hends, hall⟩ := every_run_meets (b := ⟨Settings.default, .files⟩) rfl
    hplain.distinguishes hplain.freshNames (show 0 < 2 by decide) fun _ => False
  obtain ⟨pool, hrun, hfinished⟩ := hends _ .refl
  obtain ⟨hmeets, -⟩ := hall pool hrun hfinished
  have hprepare : (Batch.prepare ⟨Settings.default, .files⟩ store ⟨"sel.txt"⟩).value =
      .inr "model: \"FIRST\"\n" := by
    subst hstore
    exact prepare_one_line rfl rfl
  have hconvert : (Batch.convert ⟨Settings.default, .files⟩ store ⟨"sel.txt"⟩).value.1 =
      .written ⟨"sel.yaml"⟩ := by
    subst hstore
    exact Batch.convert_of_lands (Batch.judge_eq_inr_iff.mpr ⟨rfl, rfl, _, hprepare, rfl⟩)
      (show Output.Lands _ _ ["w", "sel.yaml"] from ⟨⟨["w"], rfl⟩, rfl⟩)
  have hfirst : (pool.reports 2)[0]? = some ⟨⟨"sel.txt"⟩, .written ⟨"sel.yaml"⟩⟩ := by
    obtain ⟨outcome, hreport, hagrees⟩ := hmeets.alone 0 ⟨"sel.txt"⟩ rfl fun h => nomatch h.2.2
    have halone := hagrees.resolve_right fun h => h.1
    rw [hconvert] at halone
    exact halone.eq_written ▸ hreport
  have hsecond : (pool.reports 2)[1]? = some ⟨⟨"sel.sel"⟩, .skipped .claimed⟩ :=
    hmeets.shadowed 1 ⟨"sel.sel"⟩ rfl ⟨rfl, rfl, ⟨"sel.txt"⟩, List.mem_cons_self, rfl, rfl⟩
  have hlen : (pool.reports 2).length = 2 := by
    simpa using congrArg List.length hmeets.complete
  refine ⟨pool, hrun, hfinished, ?_, ?_⟩
  · refine List.ext_getElem? fun i => ?_
    match i with
    | 0 => exact hfirst
    | 1 => exact hsecond
    | i + 2 =>
        rw [List.getElem?_eq_none (by omega)]
        rfl
  · obtain ⟨place, rendering, hresolve, hrendering, hget⟩ :=
      hmeets.written _ (List.mem_of_getElem? hfirst) ⟨"sel.yaml"⟩ rfl
    subst hstore
    cases (show place = ["w", "sel.yaml"] from Except.ok.inj hresolve.symm)
    cases hprepare.symm.trans hrendering
    exact hget

end Pool

end FacetQuery

import FacetQuery.Proofs.Batch.Schedule

/-!
# `FacetQuery.Proofs.Batch.Inputs` — when a batch keeps its inputs

A path is passed over when its output would be itself, and when an earlier path has the same output. Neither
looks at whether an output is the file of another path of the batch. Such an output replaces that file, if
the batch may replace files at all; so a batch keeps its inputs in every run iff none of its outputs, written
alone, would put other bytes in the place of an input (`Pool.keeps_inputs_iff`).

If a path has such an output, there is a run with any number of workers in which it does the damage: the
system refuses all other outputs, so that nothing is put over it afterwards (`Pool.exists_run_writing`). The
run of a single worker that nothing is refused to can do it as well (`Pool.run_replaces_later_input`).
-/

namespace FacetQuery

/-! ## Inputs and outputs at one place -/

/-- No path that is not shadowed has, alone, an output that takes the place of an input with other bytes. -/
def Batch.Harmless (b : Batch) (store : FileStore) (paths : List Path) : Prop :=
  ∀ i p, paths[i]? = some p → ¬ b.Shadowed paths i p → ∀ path place rendering,
    (b.convert store p).value.1 = .written path → store.resolve path.text.toList = .ok place →
    (b.prepare store p).value = .inr rendering →
    ∀ q ∈ paths, ∀ bytes, store.resolve q.text.toList = .ok place →
      store.get? place = some (.file bytes) → bytes = rendering.toUTF8

theorem FileStore.bytes?_eq_some_iff {s : FileStore} {p : Path} {bytes : ByteArray} :
    s.bytes? p = some bytes ↔
      ∃ place, s.resolve p.text.toList = .ok place ∧ s.get? place = some (.file bytes) := by
  unfold bytes? fileAt?
  cases s.resolve p.text.toList with
  | error f => simp
  | ok place =>
      simp only [Except.ok.injEq, exists_eq_left']
      cases s.get? place with
      | none => simp
      | some e => cases e <;> simp

/-- The worker has no staging file. -/
def Activity.Unstaged : Activity → Prop
  | .writing _ _ _ (.created _) | .writing _ _ _ (.filled _) => False
  | _ => True

namespace Pool

variable {b : Batch} {cancelled : Bool} {fresh : Place → Prop} {paths : List Path}
  {store : FileStore} {workers : Nat} {pool : Pool}

/-- A batch without harmful outputs keeps its inputs at every moment. -/
theorem keeps_inputs_of_harmless (hvalid : b.settings.validate = .ok ())
    (hnames : FreshNames fresh b store paths) (hharmless : b.Harmless store paths)
    (hsteps : Steps b false fresh paths (start store workers) pool) {q : Path} (hq : q ∈ paths)
    {bytes : ByteArray} (hbytes : store.bytes? q = some bytes) :
    pool.shared.store.bytes? q = some bytes := by
  obtain ⟨c, hcourse, hfollows⟩ := follows_run hsteps.run
  have hinv := hcourse.invariant hvalid hnames
  rw [hfollows.store]
  obtain ⟨place, hresolve, hget⟩ := FileStore.bytes?_eq_some_iff.mp hbytes
  refine FileStore.bytes?_eq_some_iff.mpr ⟨place, hinv.tree.resolve hresolve, ?_⟩
  rcases hinv.wrote_or_kept (hnames.unnamed q (List.mem_append_left _ hq) place hresolve) with
    ⟨i, o, hw, hwritten⟩ | ⟨-, hkept⟩
  · obtain ⟨p, hp, hclaim, hjudge⟩ := hw.due
    obtain ⟨-, -, rendering, hprepare, rfl⟩ := Batch.judge_eq_inr_iff.mp hjudge
    have hshadowed := Batch.isClaimed_eq_false_iff.mp hclaim
    rw [hwritten, hharmless i p hp hshadowed _ place rendering
      (Batch.convert_of_lands hjudge hw.lands) hw.lands.resolve hprepare q hq bytes hresolve hget]
  · exact hkept.trans hget

/-! ## A run in which one output is written and all others are refused -/

/-- A step of the first worker. -/
theorem Steps.front {s t : Shared} {w x : Activity} (rest : List Activity)
    (h : Activity.Step b cancelled fresh paths (s, w) (t, x)) :
    Steps b cancelled fresh paths ⟨s, w :: rest⟩ ⟨t, x :: rest⟩ :=
  .tail .refl (show Step b cancelled fresh paths ⟨s, [] ++ w :: rest⟩ ⟨t, [] ++ x :: rest⟩ from .step h)

/-- The first worker gets rid of the path that it has, and the files stay as they are. -/
theorem exists_steps_refused (s : FileStore) (n i : Nat) (p : Path) (sent : List (Nat × Report))
    (rest : List Activity) :
    ∃ r, Steps b cancelled fresh paths ⟨⟨s, n, sent⟩, .holding i p :: rest⟩
      ⟨⟨s, n, sent ++ [(i, r)]⟩, .free :: rest⟩ := by
  have hconsider : Steps b cancelled fresh paths ⟨⟨s, n, sent⟩, .holding i p :: rest⟩
      ⟨⟨s, n, sent⟩, .after i p (b.consider cancelled s (paths.take i) p).value :: rest⟩ :=
    .front rest .consider
  cases hvalue : (b.consider cancelled s (paths.take i) p).value with
  | inl outcome =>
      rw [hvalue] at hconsider
      exact ⟨_, hconsider.trans (.front rest .send)⟩
  | inr o =>
      rw [hvalue] at hconsider
      have hrefuse : Steps b cancelled fresh paths ⟨⟨s, n, sent⟩, .writing i p o .ready :: rest⟩
          ⟨⟨s, n, sent⟩, .writing i p o (.ended (.error (.staging o.path .busy))) :: rest⟩ :=
        .front rest (.write (.createFails .busy))
      exact ⟨_, hconsider.trans (hrefuse.trans ((Steps.front rest .conclude).trans
        (.front rest .send)))⟩

/-- The first worker comes to hold any path, and the files stay as they are. -/
theorem exists_steps_holding (s : FileStore) (rest : List Activity) {i : Nat} {p : Path}
    (hp : paths[i]? = some p) :
    ∃ sent, Steps b cancelled fresh paths ⟨⟨s, 0, []⟩, .free :: rest⟩
      ⟨⟨s, i + 1, sent⟩, .holding i p :: rest⟩ := by
  induction i generalizing p with
  | zero => exact ⟨[], .front rest (.take hp)⟩
  | succ i ih =>
      have hlt : i < paths.length :=
        Nat.lt_of_succ_lt (List.getElem?_eq_some_iff.mp hp).1
      obtain ⟨sent, hheld⟩ := ih (List.getElem?_eq_getElem hlt)
      obtain ⟨r, hdone⟩ := exists_steps_refused s (i + 1) i paths[i] sent rest
      exact ⟨_, hheld.trans (hdone.trans (.front rest (.take hp)))⟩

/-- So does the first of any number of workers, while the others do nothing. -/
theorem exists_start_holding (hworkers : 0 < workers) (s : FileStore) {i : Nat} {p : Path}
    (hp : paths[i]? = some p) :
    ∃ k sent, Steps b cancelled fresh paths (start s workers)
      ⟨⟨s, i + 1, sent⟩, .holding i p :: List.replicate k .free⟩ := by
  obtain ⟨k, rfl⟩ := Nat.exists_eq_succ_of_ne_zero (Nat.ne_of_gt hworkers)
  exact ⟨k, exists_steps_holding s (List.replicate k .free) hp⟩

/-- The first worker writes the output of the path that it has. -/
theorem exists_steps_written (hnames : FreshNames fresh b store paths) {i : Nat} {p : Path}
    (hp : paths[i]? = some p) (hclaim : b.isClaimed (paths.take i) p = false) {o : Output}
    (hjudge : (b.judge store p).value = .inr o) {place : Place} (hlands : o.Lands store place)
    (n : Nat) (sent : List (Nat × Report)) (rest : List Activity) :
    ∃ t : FileStore, t.get? place = some (.file o.contents.toUTF8) ∧
      Steps b false fresh paths ⟨⟨store, n, sent⟩, .holding i p :: rest⟩
        ⟨⟨t, n, sent⟩, .writing i p o (.ended (.ok ())) :: rest⟩ := by
  obtain ⟨dir, hdir⟩ := hlands.staged
  obtain ⟨name, hfresh, hfree⟩ := hnames.left store dir
  have hnil : dir ++ [name] ≠ [] := by simp
  have hne : place ≠ dir ++ [name] := by
    rintro rfl
    obtain ⟨-, -, rendering, -, rfl⟩ := Batch.judge_eq_inr_iff.mp hjudge
    exact hnames.output hp hlands.resolve hfresh
  have hnow : (store.insert (dir ++ [name]) (.file o.contents.toUTF8)).get? (dir ++ [name]) =
      some (.file o.contents.toUTF8) := by
    rw [FileStore.get?_insert _ _ _ _ hnil, if_pos rfl]
  have hmoved := FileStore.moveInto_of_target hnow
    (hlands.target_staged hnil hfree hne o.contents.toUTF8)
  have hconsider : Steps b false fresh paths ⟨⟨store, n, sent⟩, .holding i p :: rest⟩
      ⟨⟨store, n, sent⟩, .after i p (b.consider false store (paths.take i) p).value :: rest⟩ :=
    .front rest .consider
  rw [Batch.value_consider hclaim, hjudge] at hconsider
  -- what is staged, filled and moved is the same file, and no other place changes
  have hcreate : Output.Step fresh o (store, .ready)
      (store.insert (dir ++ [name]) (.file .empty), .created (dir ++ [name])) :=
    .create hdir hfresh hfree
  have hfill : Output.Step fresh o
      (store.insert (dir ++ [name]) (.file .empty), .created (dir ++ [name])) _ := .fill
  rw [FileStore.insert_insert] at hfill
  have hmove : Output.Step fresh o
      (store.insert (dir ++ [name]) (.file o.contents.toUTF8), .filled (dir ++ [name])) _ := .move
  rw [hmoved] at hmove
  refine ⟨_, ?_, hconsider.trans ((Steps.front rest (.write hcreate)).trans
    ((Steps.front rest (.write hfill)).trans (.front rest (.write hmove))))⟩
  rw [FileStore.get?_insert _ _ _ _ (FileStore.ne_nil_of_get?_ne hlands.not_directory), if_pos rfl]

/-! ### Getting done without a change of the files -/

/-- A worker without a staging file can take a step that makes none and leaves the files alone. -/
theorem exists_step_unstaged (s : Shared) {w : Activity} (hw : w ≠ .stopped) (h : w.Unstaged) :
    ∃ t x, Activity.Step b cancelled fresh paths (s, w) (t, x) ∧ t.store = s.store ∧ x.Unstaged := by
  cases w with
  | stopped => exact absurd rfl hw
  | free =>
      cases hp : paths[s.next]? with
      | some p => exact ⟨_, _, .take hp, rfl, trivial⟩
      | none => exact ⟨_, _, .stop hp, rfl, trivial⟩
  | holding i p =>
      refine ⟨_, _, .consider, rfl, ?_⟩
      cases (b.consider cancelled s.store (paths.take i) p).value <;> trivial
  | reporting i r => exact ⟨_, _, .send, rfl, trivial⟩
  | writing i p o v =>
      cases v with
      | ready => exact ⟨_, _, .write (.createFails .busy), rfl, trivial⟩
      | ended r => exact ⟨_, _, .conclude, rfl, trivial⟩
      | created _ => exact h.elim
      | filled _ => exact h.elim

/-- Workers without staging files can all get done and leave the files alone. -/
theorem exists_finished_unstaged {c : Pool} (h : ∀ w ∈ c.workers, w.Unstaged) :
    ∃ d, Steps b cancelled fresh paths c d ∧ d.shared.store = c.shared.store ∧ d.Finished := by
  have hgo : ∀ e : Pool, (Steps b cancelled fresh paths c e ∧ e.shared.store = c.shared.store ∧
        ∀ w ∈ e.workers, w.Unstaged) → ¬ e.Finished → ∃ d, Step b cancelled fresh paths e d ∧
      Steps b cancelled fresh paths c d ∧ d.shared.store = c.shared.store ∧
        ∀ w ∈ d.workers, w.Unstaged := by
    rintro e ⟨hsteps, hstore, hunstaged⟩ hfinished
    obtain ⟨before, w, after, he, hne⟩ := exists_worker hfinished
    have hworkers : e.workers = before ++ w :: after := congrArg Pool.workers he
    rw [hworkers] at hunstaged
    obtain ⟨t, x, hstep, hsame, hx⟩ : ∃ t x,
        Activity.Step b cancelled fresh paths (e.shared, w) (t, x) ∧ t.store = e.shared.store ∧
          x.Unstaged := exists_step_unstaged e.shared hne (hunstaged w (by simp))
    have hnext : Step b cancelled fresh paths e ⟨t, before ++ x :: after⟩ := by
      rw [he]
      exact .step hstep
    refine ⟨_, hnext, .tail hsteps hnext, hsame.trans hstore, fun v hv => ?_⟩
    rcases List.mem_append.mp hv with hv | hv
    · exact hunstaged v (List.mem_append_left _ hv)
    · rcases List.mem_cons.mp hv with rfl | hv
      · exact hx
      · exact hunstaged v (List.mem_append_right _ (List.mem_cons_of_mem _ hv))
  obtain ⟨d, ⟨hsteps, hstore, -⟩, hfinished⟩ := exists_finished_of hgo ⟨.refl, rfl, h⟩
  exact ⟨d, hsteps, hstore, hfinished⟩

/-- A first worker without a staging file and others that have done nothing can. -/
theorem exists_finished_front (s : Shared) {w : Activity} (hw : w.Unstaged) (k : Nat) :
    ∃ d, Steps b cancelled fresh paths ⟨s, w :: List.replicate k .free⟩ d ∧
      d.shared.store = s.store ∧ d.Finished := by
  apply exists_finished_unstaged
  intro v hv
  rcases List.mem_cons.mp hv with rfl | hv
  · exact hw
  · rw [List.eq_of_mem_replicate hv]
    trivial

/-- Whatever a path that no earlier one claims has to write alone, there is a run in which it is what stands at
    its place in the end. -/
theorem exists_run_writing (hnames : FreshNames fresh b store paths) (hworkers : 0 < workers) {i : Nat}
    {p : Path} (hp : paths[i]? = some p) (hclaim : b.isClaimed (paths.take i) p = false) {o : Output}
    (hjudge : (b.judge store p).value = .inr o) {place : Place} (hlands : o.Lands store place) :
    ∃ pool, Steps b false fresh paths (start store workers) pool ∧ pool.Finished ∧
      pool.shared.store.get? place = some (.file o.contents.toUTF8) := by
  obtain ⟨k, sent, hheld⟩ := exists_start_holding hworkers store hp
  obtain ⟨t, hget, hwritten⟩ :=
    exists_steps_written hnames hp hclaim hjudge hlands (i + 1) sent (List.replicate k .free)
  obtain ⟨d, hdone, hstore, hfinished⟩ :=
    exists_finished_front ⟨t, i + 1, sent⟩ (w := .writing i p o (.ended (.ok ()))) trivial k
  refine ⟨d, hheld.trans (hwritten.trans hdone), hfinished, ?_⟩
  rw [hstore]
  exact hget

/-! ## When inputs are kept -/

/-- **A batch keeps its inputs iff its outputs are harmless.** Take valid settings and any number of workers. A
    file that is named by a path of the batch holds the same in the end of every run iff no path that is not
    shadowed has, alone, an output in the place of an input with other bytes; and then it holds the same at
    every moment. -/
theorem keeps_inputs_iff (hvalid : b.settings.validate = .ok ())
    (hnames : FreshNames fresh b store paths) (hworkers : 0 < workers) :
    ((∀ pool, Steps b false fresh paths (start store workers) pool → pool.Finished →
        ∀ q ∈ paths, ∀ bytes, store.bytes? q = some bytes →
          pool.shared.store.bytes? q = some bytes) ↔ b.Harmless store paths) ∧
      (b.Harmless store paths → ∀ pool, Steps b false fresh paths (start store workers) pool →
        ∀ q ∈ paths, ∀ bytes, store.bytes? q = some bytes →
          pool.shared.store.bytes? q = some bytes) := by
  have hkeeps : b.Harmless store paths → ∀ pool,
      Steps b false fresh paths (start store workers) pool → ∀ q ∈ paths, ∀ bytes,
        store.bytes? q = some bytes → pool.shared.store.bytes? q = some bytes :=
    fun hharmless pool hsteps q hq bytes =>
      keeps_inputs_of_harmless hvalid hnames hharmless hsteps hq
  refine ⟨⟨fun h => ?_, fun hharmless pool hsteps _ => hkeeps hharmless pool hsteps⟩, hkeeps⟩
  -- an output in the place of an input comes to stand there in some run, and there the input is kept
  intro i p hp hshadowed path place rendering hconvert hplace hprepare q hq bytes hresolve hget
  obtain ⟨o, place', hjudge, rfl, hlands⟩ := Batch.lands_of_convert hconvert
  have hsame : place' = place := Except.ok.inj (hlands.resolve.symm.trans hplace)
  rw [hsame] at hlands
  have hclaim := Batch.isClaimed_eq_false_iff.mpr hshadowed
  obtain ⟨pool, hsteps, hfinished, hwritten⟩ :
      ∃ pool, Steps b false fresh paths (start store workers) pool ∧ pool.Finished ∧
        pool.shared.store.get? place = some (.file o.contents.toUTF8) :=
    exists_run_writing hnames hworkers hp hclaim hjudge hlands
  obtain ⟨c, hcourse, hfollows⟩ := follows_run hsteps.run
  have htree := (hcourse.invariant hvalid hnames).tree
  rw [← hfollows.store] at htree
  have hkept := h pool hsteps hfinished q hq bytes
    (FileStore.bytes?_eq_some_iff.mpr ⟨place, hresolve, hget⟩)
  obtain ⟨place₁, hresolve₁, hget₁⟩ := FileStore.bytes?_eq_some_iff.mp hkept
  have hplace₁ : place₁ = place :=
    Except.ok.inj (hresolve₁.symm.trans (htree.resolve hresolve))
  rw [hplace₁] at hget₁
  have hbytes : bytes = o.contents.toUTF8 :=
    Entry.file.inj (Option.some.inj (hget₁.symm.trans hwritten))
  obtain ⟨-, -, rendering', hprepare', rfl⟩ := Batch.judge_eq_inr_iff.mp hjudge
  cases hprepare.symm.trans hprepare'
  exact hbytes

/-- A file and the output that goes with it, given in this order: the output is its own, the other path is
    passed over, and both are kept. -/
theorem keeps_inputs_iff_output_first :
    FreshNames StagingPlace ⟨Settings.default, .files⟩
        ⟨["w"], [(["w"], .directory), (["w", "sel.txt"], .file "model=FIRST\n".toUTF8),
          (["w", "sel.yaml"], .file "model=SECOND\n".toUTF8)]⟩
        [⟨"sel.yaml"⟩, ⟨"sel.txt"⟩] ∧
      ∀ pool, Steps ⟨Settings.default, .files⟩ false StagingPlace [⟨"sel.yaml"⟩, ⟨"sel.txt"⟩]
        (start ⟨["w"], [(["w"], .directory), (["w", "sel.txt"], .file "model=FIRST\n".toUTF8),
          (["w", "sel.yaml"], .file "model=SECOND\n".toUTF8)]⟩ 2) pool →
        pool.shared.store.bytes? ⟨"sel.txt"⟩ = some "model=FIRST\n".toUTF8 ∧
          pool.shared.store.bytes? ⟨"sel.yaml"⟩ = some "model=SECOND\n".toUTF8 := by
  generalize hstore : FileStore.mk ["w"] [(["w"], .directory),
    (["w", "sel.txt"], .file "model=FIRST\n".toUTF8),
    (["w", "sel.yaml"], .file "model=SECOND\n".toUTF8)] = store
  have hplain : store.PlainNames ["w"]
      (Batch.involved ⟨Settings.default, .files⟩ [⟨"sel.yaml"⟩, ⟨"sel.txt"⟩]) := by
    intro p hp
    simp only [Batch.involved, List.map_cons, List.map_nil, List.cons_append, List.nil_append,
      List.mem_cons, List.not_mem_nil, or_false] at hp
    subst hstore
    rcases hp with rfl | rfl | rfl | rfl <;> exact ⟨rfl, by decide⟩
  have hharmless : Batch.Harmless ⟨Settings.default, .files⟩ store [⟨"sel.yaml"⟩, ⟨"sel.txt"⟩] := by
    intro i p hp hshadowed path place rendering hconvert
    rcases i with - | - | i
    · cases hp
      obtain ⟨o, -, hjudge, -⟩ := Batch.lands_of_convert hconvert
      exact absurd (Batch.judge_eq_inr_iff.mp hjudge).2.1 (by decide)
    · cases hp
      exact absurd ⟨rfl, rfl, ⟨"sel.yaml"⟩, List.mem_cons_self, rfl, rfl⟩ hshadowed
    · cases hp
  refine ⟨hplain.freshNames, fun pool hsteps => ?_⟩
  have hkept := (keeps_inputs_iff rfl hplain.freshNames (show 0 < 2 by decide)).2 hharmless pool hsteps
  subst hstore
  exact ⟨hkept ⟨"sel.txt"⟩ (by simp) _ rfl, hkept ⟨"sel.yaml"⟩ (by simp) _ rfl⟩

/-- The same files in the other order, with a single worker to which the system refuses nothing: the output of
    the first replaces the second, which is then passed over unread. -/
theorem run_replaces_later_input :
    ∃ pool, Steps ⟨Settings.default, .files⟩ false StagingPlace [⟨"sel.txt"⟩, ⟨"sel.yaml"⟩]
        (start ⟨["w"], [(["w"], .directory), (["w", "sel.txt"], .file "model=FIRST\n".toUTF8),
          (["w", "sel.yaml"], .file "model=SECOND\n".toUTF8)]⟩ 1) pool ∧
      pool.Finished ∧
      pool.reports 2 =
        [⟨⟨"sel.txt"⟩, .written ⟨"sel.yaml"⟩⟩, ⟨⟨"sel.yaml"⟩, .skipped .claimed⟩] ∧
      FileStore.bytes? ⟨["w"], [(["w"], .directory), (["w", "sel.txt"], .file "model=FIRST\n".toUTF8),
          (["w", "sel.yaml"], .file "model=SECOND\n".toUTF8)]⟩ ⟨"sel.yaml"⟩ =
        some "model=SECOND\n".toUTF8 ∧
      pool.shared.store.bytes? ⟨"sel.yaml"⟩ = some "model: \"FIRST\"\n".toUTF8 ∧
      "model: \"FIRST\"\n".toUTF8 ≠ "model=SECOND\n".toUTF8 := by
  generalize hstore : FileStore.mk ["w"] [(["w"], .directory),
    (["w", "sel.txt"], .file "model=FIRST\n".toUTF8),
    (["w", "sel.yaml"], .file "model=SECOND\n".toUTF8)] = store
  obtain ⟨pool, hsteps, hfinished, hreports, hfinal⟩ :=
    run_steps ⟨Settings.default, .files⟩ false stagingPlace_freeName store [⟨"sel.txt"⟩, ⟨"sel.yaml"⟩]
  have hprepare : (Batch.prepare ⟨Settings.default, .files⟩ store ⟨"sel.txt"⟩).value =
      .inr "model: \"FIRST\"\n" := by
    subst hstore
    exact prepare_one_line rfl rfl
  have hjudge : (Batch.judge ⟨Settings.default, .files⟩ store ⟨"sel.txt"⟩).value =
      .inr ⟨⟨"sel.yaml"⟩, "model: \"FIRST\"\n", true⟩ :=
    Batch.judge_eq_inr_iff.mpr ⟨rfl, rfl, _, hprepare, rfl⟩
  have hlands : Output.Lands ⟨⟨"sel.yaml"⟩, "model: \"FIRST\"\n", true⟩ store ["w", "sel.yaml"] := by
    subst hstore
    exact ⟨⟨["w"], rfl⟩, rfl⟩
  have hfirst : (Batch.attend ⟨Settings.default, .files⟩ false store [] ⟨"sel.txt"⟩).value =
      (.written ⟨"sel.yaml"⟩,
        (Output.write ⟨⟨"sel.yaml"⟩, "model: \"FIRST\"\n", true⟩ store).value.2) := by
    rw [Batch.attend_of_unclaimed rfl store, Batch.convert_of_inr hjudge,
      (Output.write_of_lands hlands).1]
    rfl
  have hsecond : ∀ s, (Batch.attend ⟨Settings.default, .files⟩ false s [⟨"sel.txt"⟩]
      ⟨"sel.yaml"⟩).value = (.skipped .claimed, s) := Batch.attend_of_claimed rfl
  have hrun : (Batch.run ⟨Settings.default, .files⟩ false store
      [⟨"sel.txt"⟩, ⟨"sel.yaml"⟩]).value =
      ([⟨⟨"sel.txt"⟩, .written ⟨"sel.yaml"⟩⟩, ⟨⟨"sel.yaml"⟩, .skipped .claimed⟩],
        (Output.write ⟨⟨"sel.yaml"⟩, "model: \"FIRST\"\n", true⟩ store).value.2) := by
    simp only [Batch.run, Batch.runFrom, Logged.value_bind, hfirst, List.nil_append, hsecond,
      Logged.value_pure]
  rw [hrun] at hreports hfinal
  refine ⟨pool, hsteps, hfinished, hreports, ?_, ?_, fun h => ?_⟩
  · subst hstore
    rfl
  · rw [hfinal]
    refine FileStore.bytes?_eq_some_iff.mpr ⟨["w", "sel.yaml"], ?_, ?_⟩
    · subst hstore
      rfl
    · rw [(Output.write_of_lands hlands).2, if_pos rfl]
  · exact absurd (String.toByteArray_inj.mp h) (by decide)

end Pool

end FacetQuery

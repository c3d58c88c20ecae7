import FacetQuery.Batch.Pool

/-!
# `FacetQuery.Proofs.Batch.Course` — a batch path by path

A pool of workers says who does what. What the batch has come to is easier to say by path: each path waits,
is held, is being written, or is settled with an outcome (`Phase`), and a step takes one path from one phase
to the next (`Course.Step`). Which worker takes it is forgotten, and so is the order in which the reports
were sent.

`Pool.follows_run` says that whatever workers do is a course: an index is in the hands of one worker at
most, and in those of some worker, or sent, once the cursor is past it (`Accounts`). When all workers are
done every path is settled, and the reports in order are the outcomes by path (`reports_of_finished`).

## Contents
- `Output.Refused` and `Pool.Run`: runs in which the system refuses to write only some of the outputs.
- `Phase`, `Course` and `Course.Steps`.
- `Accounts`, the books on who has which path, step by step.
- `Pool.Follows`, and the reports of a pool that is done.
-/

namespace FacetQuery

/-! ## Runs with refusals -/

/-- The system refuses to make a staging file although the directory for it is there, or to fill it, or its
    move comes to something else than what the files make of it. -/
def Output.Refused (o : Output) (s : FileStore) : Writing → Writing → Prop
  | .ready, .ended _ => ∃ dir, s.directoryOf o.path = .ok dir
  | .created _, .ended _ => True
  | .filled staging, .ended r => r ≠ o.verdict (s.moveInto staging o.path o.overwrite).1
  | _, _ => False

/-- Any number of steps of the workers in any order, where the system refuses to write no outputs but those
    of the paths whose index is in `struck`. -/
inductive Pool.Run (b : Batch) (cancelled : Bool) (fresh : Place → Prop) (struck : Nat → Prop)
    (paths : List Path) : Pool → Pool → Prop
  | refl {c} : Pool.Run b cancelled fresh struck paths c c
  | tail {c s t before w x after}
      (h : Pool.Run b cancelled fresh struck paths c ⟨s, before ++ w :: after⟩)
      (hstep : Activity.Step b cancelled fresh paths (s, w) (t, x))
      (hrefused : ∀ i p o v v', w = .writing i p o v → x = .writing i p o v' →
        o.Refused s.store v v' → struck i) :
      Pool.Run b cancelled fresh struck paths c ⟨t, before ++ x :: after⟩

section Runs

variable {b : Batch} {cancelled : Bool} {fresh : Place → Prop} {struck : Nat → Prop}
  {paths : List Path}

/-- Where the system may refuse everything, all steps are runs. -/
theorem Pool.Steps.run {c d : Pool} (h : Pool.Steps b cancelled fresh paths c d) :
    Pool.Run b cancelled fresh (fun _ => True) paths c d := by
  induction h with
  | refl => exact .refl
  | tail _ hstep ih =>
      cases hstep with
      | step hstep => exact .tail ih hstep fun _ _ _ _ _ _ _ _ => trivial

/-- No worker joins or leaves. -/
theorem Pool.Run.length_workers {c d : Pool} (h : Pool.Run b cancelled fresh struck paths c d) :
    d.workers.length = c.workers.length := by
  induction h with
  | refl => rfl
  | tail _ _ _ ih => simpa using ih

end Runs

/-! ## Phases -/

/-- How far a batch has come with one of its paths. -/
inductive Phase where
  /-- No worker has taken it. -/
  | waiting
  /-- A worker has it, and has not considered it. -/
  | held
  | writing (output : Output) (stage : Writing)
  | settled (outcome : Outcome)

/-- The phase after a path was considered. -/
def Phase.after : Outcome ⊕ Output → Phase
  | .inl outcome => .settled outcome
  | .inr o => .writing o .ready

/-- A batch under way: the files, and the phase of the path with each index. -/
structure Course where
  store : FileStore
  phase : Nat → Phase

namespace Course

/-- A batch that has not begun. -/
def start (store : FileStore) : Course := ⟨store, fun _ => .waiting⟩

/-- The course with one path in another phase. -/
def set (c : Course) (i : Nat) (x : Phase) : Course :=
  { c with phase := fun j => if j = i then x else c.phase j }

@[simp] theorem phase_set_self (c : Course) (i : Nat) (x : Phase) : (c.set i x).phase i = x :=
  if_pos rfl

theorem phase_set_of_ne (c : Course) {i j : Nat} (h : j ≠ i) (x : Phase) :
    (c.set i x).phase j = c.phase j :=
  if_neg h

/-- What holds of the phase of a path still does when one path gets into another phase of which it holds. -/
theorem phase_set_of {P : Phase → Prop} {c : Course} {i : Nat} (h : P (c.phase i)) (j : Nat) (x : Phase)
    (hx : j = i → P x) : P ((c.set j x).phase i) := by
  by_cases hj : j = i
  · subst hj
    rw [c.phase_set_self j x]
    exact hx rfl
  · rw [c.phase_set_of_ne (Ne.symm hj) x]
    exact h

/-- One path gets one phase further, or one step further in the writing of its output. -/
inductive Step (b : Batch) (cancelled : Bool) (fresh : Place → Prop) (struck : Nat → Prop)
    (paths : List Path) : Course → Course → Prop
  | take {c i p} (hp : paths[i]? = some p) (h : c.phase i = .waiting) :
      Step b cancelled fresh struck paths c (c.set i .held)
  | consider {c i p} (hp : paths[i]? = some p) (h : c.phase i = .held) :
      Step b cancelled fresh struck paths c
        (c.set i (.after (b.consider cancelled c.store (paths.take i) p).value))
  | write {c i p o w t x} (hp : paths[i]? = some p) (h : c.phase i = .writing o w)
      (hstep : Output.Step fresh o (c.store, w) (t, x)) (hrefused : o.Refused c.store w x → struck i) :
      Step b cancelled fresh struck paths c { c.set i (.writing o x) with store := t }
  | conclude {c i p o r} (hp : paths[i]? = some p) (h : c.phase i = .writing o (.ended r)) :
      Step b cancelled fresh struck paths c (c.set i (.settled (Batch.conclude p o r).value))

/-- Any number of steps, of any paths in any order. -/
inductive Steps (b : Batch) (cancelled : Bool) (fresh : Place → Prop) (struck : Nat → Prop)
    (paths : List Path) : Course → Course → Prop
  | refl {c} : Steps b cancelled fresh struck paths c c
  | tail {c d e} : Steps b cancelled fresh struck paths c d →
      Step b cancelled fresh struck paths d e → Steps b cancelled fresh struck paths c e

end Course

/-! ## Who has which path -/

namespace Activity

/-- The index of the path that a worker has in hand. -/
def index? : Activity → Option Nat
  | .free | .stopped => none
  | .holding i _ | .writing i _ _ _ | .reporting i _ => some i

/-- What a worker is at is what the phases say of its path; and a worker that is done found no path left. -/
def Fits (paths : List Path) (next : Nat) (phase : Nat → Phase) : Activity → Prop
  | .free => True
  | .stopped => paths.length ≤ next
  | .holding i p => paths[i]? = some p ∧ phase i = .held
  | .writing i p o w => paths[i]? = some p ∧ phase i = .writing o w
  | .reporting i r => paths[i]? = some r.path ∧ phase i = .settled r.outcome

/-- What becomes of another path is nothing to a worker. -/
theorem Fits.set {paths : List Path} {next next' : Nat} {c : Course} {i : Nat} {x : Phase}
    {a : Activity} (h : a.Fits paths next c.phase) (hne : a.index? ≠ some i) (hle : next ≤ next') :
    a.Fits paths next' (c.set i x).phase := by
  cases a with
  | free => trivial
  | stopped => exact Nat.le_trans h hle
  | holding j p => exact ⟨h.1, (c.phase_set_of_ne (fun e => hne (congrArg some e)) x).trans h.2⟩
  | writing j p o w => exact ⟨h.1, (c.phase_set_of_ne (fun e => hne (congrArg some e)) x).trans h.2⟩
  | reporting j r => exact ⟨h.1, (c.phase_set_of_ne (fun e => hne (congrArg some e)) x).trans h.2⟩

end Activity

/-- The books on a batch: each path that the cursor has passed is in one pair of hands, which is at what the
    phases say, and all other paths wait. A report that was sent counts as the hands that it came from. -/
structure Accounts (paths : List Path) (next : Nat) (phase : Nat → Phase) (tasks : List Activity) :
    Prop where
  fits : ∀ a ∈ tasks, a.Fits paths next phase
  distinct : (tasks.filterMap Activity.index?).Nodup
  taken : ∀ i, i ∈ tasks.filterMap Activity.index? ↔ i < next ∧ i < paths.length
  waiting : ∀ i, ¬ (i < next ∧ i < paths.length) → phase i = .waiting

namespace Accounts

variable {paths : List Path} {next : Nat} {c : Course} {tasks rest : List Activity}

theorem perm {phase : Nat → Phase} {tasks' : List Activity} (h : Accounts paths next phase tasks)
    (hperm : tasks.Perm tasks') : Accounts paths next phase tasks' := by
  have hindices := hperm.filterMap Activity.index?
  exact ⟨fun a ha => h.fits a (hperm.mem_iff.mpr ha), hindices.nodup_iff.mp h.distinct,
    fun i => hindices.mem_iff.symm.trans (h.taken i), h.waiting⟩

/-- The cursor is past a path that is in hand. -/
theorem lt_of_index? {phase : Nat → Phase} (h : Accounts paths next phase tasks) {a : Activity}
    (ha : a ∈ tasks) {i : Nat} (hi : a.index? = some i) : i < next ∧ i < paths.length :=
  (h.taken i).mp (List.mem_filterMap.mpr ⟨a, ha, hi⟩)

/-- Hands that hold a path are the only ones that do. -/
theorem index_ne {w : Activity} {i : Nat} (h : Accounts paths next c.phase (w :: rest))
    (hw : w.index? = some i) : ∀ a ∈ rest, a.index? ≠ some i := by
  intro a ha hi
  have hdistinct := h.distinct
  rw [List.filterMap_cons_some hw, List.nodup_cons] at hdistinct
  exact hdistinct.1 (List.mem_filterMap.mpr ⟨a, ha, hi⟩)

/-- A path gets further in the hands that it is in. -/
theorem advance {w x : Activity} {i : Nat} {y : Phase}
    (h : Accounts paths next c.phase (w :: rest)) (hw : w.index? = some i) (hx : x.index? = some i)
    (hfits : x.Fits paths next (c.set i y).phase) :
    Accounts paths next (c.set i y).phase (x :: rest) := by
  -- the same indices are in hand as before
  have hindices : (x :: rest).filterMap Activity.index? = (w :: rest).filterMap Activity.index? := by
    rw [List.filterMap_cons_some hw, List.filterMap_cons_some hx]
  refine ⟨fun a ha => ?_, hindices ▸ h.distinct, hindices ▸ h.taken, fun j hj => ?_⟩
  · rcases List.mem_cons.mp ha with rfl | ha
    · exact hfits
    · exact (h.fits a (List.mem_cons_of_mem w ha)).set (h.index_ne hw a ha) (Nat.le_refl next)
  · have hne : j ≠ i := by
      rintro rfl
      apply hj
      rw [← h.taken, List.filterMap_cons_some hw]
      exact List.mem_cons_self
    exact (c.phase_set_of_ne hne y).trans (h.waiting j hj)

/-- The path under the cursor gets into hands that were free. -/
theorem take {p : Path} (h : Accounts paths next c.phase (.free :: rest))
    (hp : paths[next]? = some p) :
    Accounts paths (next + 1) (c.set next .held).phase (.holding next p :: rest) := by
  have hlt : next < paths.length := (List.getElem?_eq_some_iff.mp hp).1
  have hbefore : ∀ i, i ∈ rest.filterMap Activity.index? ↔ i < next ∧ i < paths.length := h.taken
  have hindices : (Activity.holding next p :: rest).filterMap Activity.index? =
      next :: rest.filterMap Activity.index? := List.filterMap_cons_some rfl
  -- the cursor has not passed its own index, so nobody has it
  have hnext : next ∉ rest.filterMap Activity.index? := fun hmem =>
    Nat.lt_irrefl next ((hbefore next).mp hmem).1
  refine ⟨fun a ha => ?_, ?_, fun i => ?_, fun i hi => ?_⟩
  · rcases List.mem_cons.mp ha with rfl | ha
    · exact ⟨hp, c.phase_set_self next .held⟩
    · refine (h.fits a (List.mem_cons_of_mem _ ha)).set (fun hi => hnext ?_) (Nat.le_succ next)
      exact List.mem_filterMap.mpr ⟨a, ha, hi⟩
  · rw [hindices]
    exact List.nodup_cons.mpr ⟨hnext, h.distinct⟩
  · rw [hindices, List.mem_cons, hbefore]
    omega
  · rw [c.phase_set_of_ne (by omega)]
    exact h.waiting i (by omega)

/-- Hands that were free find no path left. -/
theorem stop {phase : Nat → Phase} (h : Accounts paths next phase (.free :: rest))
    (hp : paths[next]? = none) : Accounts paths (next + 1) phase (.stopped :: rest) := by
  have hle : paths.length ≤ next := List.getElem?_eq_none_iff.mp hp
  have hbefore : ∀ i, i ∈ rest.filterMap Activity.index? ↔ i < next ∧ i < paths.length := h.taken
  refine ⟨fun a ha => ?_, h.distinct, fun i => ?_, fun i hi => h.waiting i (by omega)⟩
  · rcases List.mem_cons.mp ha with rfl | ha
    · exact Nat.le_succ_of_le hle
    · have hfits := h.fits a (List.mem_cons_of_mem _ ha)
      cases a with
      | stopped => exact Nat.le_succ_of_le hfits
      | free => trivial
      | holding j q => exact hfits
      | writing j q o w => exact hfits
      | reporting j r => exact hfits
  · rw [List.filterMap_cons_none rfl, hbefore]
    omega

/-- A report leaves the hands that it was in. -/
theorem send {phase : Nat → Phase} {i : Nat} {r : Report}
    (h : Accounts paths next phase (.reporting i r :: rest)) :
    Accounts paths next phase (.free :: .reporting i r :: rest) := by
  have hindices : (Activity.free :: .reporting i r :: rest).filterMap Activity.index? =
      (Activity.reporting i r :: rest).filterMap Activity.index? := List.filterMap_cons_none rfl
  refine ⟨fun a ha => ?_, hindices ▸ h.distinct, hindices ▸ h.taken, h.waiting⟩
  rcases List.mem_cons.mp ha with rfl | ha
  · trivial
  · exact h.fits a ha

end Accounts

/-! ## A pool and its course -/

namespace Pool

/-- The hands of a pool: its workers, and the reports that were sent. -/
def tasks (pool : Pool) : List Activity :=
  pool.workers ++ pool.shared.sent.map fun (i, r) => .reporting i r

/-- A pool is at what the course says. -/
structure Follows (paths : List Path) (pool : Pool) (c : Course) : Prop where
  store : pool.shared.store = c.store
  accounts : Accounts paths pool.shared.next c.phase pool.tasks

theorem tasks_perm (s : Shared) (before after : List Activity) (w : Activity) :
    (Pool.mk s (before ++ w :: after)).tasks.Perm
      (w :: ((before ++ after) ++ s.sent.map fun (i, r) => .reporting i r)) :=
  List.perm_middle.append_right _

section Follows

variable {b : Batch} {cancelled : Bool} {fresh : Place → Prop} {struck : Nat → Prop}
  {paths : List Path}

theorem follows_start (store : FileStore) (n : Nat) :
    Follows paths (start store n) (Course.start store) := by
  have hindices : (List.replicate n Activity.free).filterMap Activity.index? = [] := by
    induction n with
    | zero => rfl
    | succ n ih => rw [List.replicate_succ, List.filterMap_cons_none rfl, ih]
  have htasks : (start store n).tasks = List.replicate n .free := List.append_nil _
  refine ⟨rfl, htasks ▸ ⟨fun a ha => ?_, ?_, fun i => ?_, fun _ _ => rfl⟩⟩
  · rw [List.eq_of_mem_replicate ha]
    trivial
  · rw [hindices]
    exact List.nodup_nil
  · rw [hindices]
    simp [start]

/-- A step of a worker is a step of its path, or changes nothing but who has it. -/
theorem follows_step {s t : Shared} {before after : List Activity} {w x : Activity} {c : Course}
    (hf : Follows paths ⟨s, before ++ w :: after⟩ c)
    (hstep : Activity.Step b cancelled fresh paths (s, w) (t, x))
    (hrefused : ∀ i p o v v', w = .writing i p o v → x = .writing i p o v' →
      o.Refused s.store v v' → struck i) :
    ∃ d, Follows paths ⟨t, before ++ x :: after⟩ d ∧
      (d = c ∨ Course.Step b cancelled fresh struck paths c d) := by
  have hbooks := hf.accounts.perm (tasks_perm s before after w)
  have hstore : s.store = c.store := hf.store
  have hfits := hbooks.fits w List.mem_cons_self
  have hback := fun u => (tasks_perm u before after x).symm
  cases hstep with
  | take hp =>
      -- the course takes the path that the cursor is at: nobody has had it, so it waits
      have hwait := hf.accounts.waiting s.next fun h => Nat.lt_irrefl _ h.1
      refine ⟨c.set s.next .held, ⟨hstore, ?_⟩, .inr (.take hp hwait)⟩
      exact (hbooks.take hp).perm (hback _)
  | stop hp => exact ⟨c, ⟨hstore, (hbooks.stop hp).perm (hback _)⟩, .inl rfl⟩
  | @consider _ i p =>
      refine ⟨c.set i (.after (b.consider cancelled c.store (paths.take i) p).value), ⟨hstore, ?_⟩,
        .inr (.consider hfits.1 hfits.2)⟩
      rw [hstore] at hback ⊢
      refine (hbooks.advance rfl ?_ ?_).perm (hback _)
      · cases (b.consider cancelled c.store (paths.take i) p).value <;> rfl
      · cases (b.consider cancelled c.store (paths.take i) p).value with
        | inl outcome => exact ⟨hfits.1, c.phase_set_self i _⟩
        | inr o => exact ⟨hfits.1, c.phase_set_self i _⟩
  | @write _ i p o v u y hwrite =>
      have hstruck := hrefused i p o v y rfl rfl
      rw [hstore] at hwrite hstruck
      refine ⟨{ c.set i (.writing o y) with store := u }, ⟨rfl, ?_⟩,
        .inr (.write hfits.1 hfits.2 hwrite hstruck)⟩
      have hnow : (Activity.writing i p o y).Fits paths s.next (c.set i (.writing o y)).phase :=
        ⟨hfits.1, c.phase_set_self i _⟩
      exact (hbooks.advance rfl rfl hnow).perm (hback _)
  | @conclude _ i p o r =>
      refine ⟨c.set i (.settled (Batch.conclude p o r).value), ⟨hstore, ?_⟩,
        .inr (.conclude hfits.1 hfits.2)⟩
      have hnow : (Activity.reporting i ⟨p, (Batch.conclude p o r).value⟩).Fits paths s.next
          (c.set i (.settled (Batch.conclude p o r).value)).phase :=
        ⟨hfits.1, c.phase_set_self i _⟩
      exact (hbooks.advance rfl rfl hnow).perm (hback _)
  | @send _ i r =>
      refine ⟨c, ⟨hstore, hbooks.send.perm ?_⟩, .inl rfl⟩
      -- the report moves from the worker to the end of those that were sent
      refine List.Perm.trans ?_ (hback _)
      simp only [List.map_append, List.map_cons, List.map_nil, ← List.append_assoc]
      exact .cons _ (List.perm_append_singleton _ _).symm

theorem Run.workers_ne_nil {store : FileStore} {n : Nat} {pool : Pool} (hn : 0 < n)
    (h : Run b cancelled fresh struck paths (start store n) pool) : pool.workers ≠ [] := by
  apply List.ne_nil_of_length_pos
  rw [h.length_workers]
  simpa [start] using hn

/-- Whatever the workers do, the pool follows a course. -/
theorem follows_run {store : FileStore} {n : Nat} {pool : Pool}
    (h : Run b cancelled fresh struck paths (start store n) pool) :
    ∃ c, Course.Steps b cancelled fresh struck paths (Course.start store) c ∧
      Follows paths pool c := by
  induction h with
  | refl => exact ⟨_, .refl, follows_start store n⟩
  | tail _ hstep hrefused ih =>
      obtain ⟨c, hsteps, hfollows⟩ := ih
      obtain ⟨d, hfollows', rfl | hcourse⟩ := follows_step hfollows hstep hrefused
      · exact ⟨d, hsteps, hfollows'⟩
      · exact ⟨d, .tail hsteps hcourse, hfollows'⟩

end Follows

/-! ## The reports in the end -/

end Pool

/-- Reports that bear the path with their index, and are as many as the paths. -/
theorem Report.map_path_eq {paths : List Path} {reports : List Report}
    (hlen : reports.length = paths.length)
    (h : ∀ (i : Nat) (p : Path), paths[i]? = some p → ∃ outcome, reports[i]? = some ⟨p, outcome⟩) :
    reports.map (·.path) = paths := by
  refine List.ext_getElem? fun i => ?_
  rw [List.getElem?_map]
  cases hp : paths[i]? with
  | none =>
      have hlast : reports.length ≤ i :=
        Nat.le_trans (Nat.le_of_eq hlen) (List.getElem?_eq_none_iff.mp hp)
      rw [List.getElem?_eq_none_iff.mpr hlast]
      rfl
  | some p =>
      obtain ⟨outcome, hreport⟩ := h i p hp
      rw [hreport]
      rfl

namespace Pool

/-- Where each key stands once, the look-up finds what stands beside it. -/
theorem lookup_of_mem {α : Type} {l : List (Nat × α)} (hkeys : (l.map (·.1)).Nodup) {i : Nat} {a : α}
    (h : (i, a) ∈ l) : l.lookup i = some a := by
  induction l with
  | nil => exact absurd h List.not_mem_nil
  | cons x l ih =>
      obtain ⟨j, b⟩ := x
      rw [List.map_cons, List.nodup_cons] at hkeys
      rcases List.mem_cons.mp h with heq | hmem
      · cases heq
        exact List.lookup_cons_self
      · have hne : i ≠ j := fun e => hkeys.1 (e ▸ List.mem_map.mpr ⟨(i, a), hmem, rfl⟩)
        have hbeq : (i == j) = false := beq_eq_false_iff_ne.mpr hne
        rw [List.lookup_cons, hbeq]
        exact ih hkeys.2 hmem

/-- A function that has a value at each of the first `n` numbers, as a list. -/
theorem filterMap_range_of_isSome {α : Type} {f : Nat → Option α} {n : Nat}
    (h : ∀ i < n, (f i).isSome = true) :
    ((List.range n).filterMap f).length = n ∧
      ∀ i < n, ((List.range n).filterMap f)[i]? = f i := by
  induction n with
  | zero => exact ⟨rfl, fun i hi => absurd hi (Nat.not_lt_zero i)⟩
  | succ n ih =>
      obtain ⟨hlen, hget⟩ := ih fun i hi => h i (Nat.lt_succ_of_lt hi)
      obtain ⟨a, ha⟩ := Option.isSome_iff_exists.mp (h n (Nat.lt_succ_self n))
      have hlast : (List.range (n + 1)).filterMap f = (List.range n).filterMap f ++ [a] := by
        rw [List.range_succ, List.filterMap_append, List.filterMap_cons_some ha, List.filterMap_nil]
      rw [hlast]
      refine ⟨by rw [List.length_append, hlen, List.length_singleton], fun i hi => ?_⟩
      rcases Nat.lt_succ_iff_lt_or_eq.mp hi with hlt | rfl
      · rw [List.getElem?_append_left (hlen.symm ▸ hlt)]
        exact hget i hlt
      · rw [List.getElem?_append_right (Nat.le_of_eq hlen), hlen, Nat.sub_self, ha]
        rfl

section Finished

variable {paths : List Path} {pool : Pool} {c : Course}

/-- When all workers are done one report was sent for each path. -/
theorem sent_perm_of_finished (hf : Follows paths pool c) (hfinished : pool.Finished)
    (hne : pool.workers ≠ []) : (pool.shared.sent.map (·.1)).Perm (List.range paths.length) := by
  obtain ⟨w, hw⟩ := List.exists_mem_of_ne_nil _ hne
  have hpast : paths.length ≤ pool.shared.next := by
    have hfits := hf.accounts.fits w (List.mem_append_left _ hw)
    rw [hfinished w hw] at hfits
    exact hfits
  -- the workers have nothing in hand, so all that is in hand was sent
  have hidle : pool.workers.filterMap Activity.index? = [] := by
    rw [List.filterMap_eq_nil_iff]
    intro a ha
    rw [hfinished a ha]
    rfl
  have hsent : pool.tasks.filterMap Activity.index? = pool.shared.sent.map (·.1) := by
    have hcomp : Activity.index? ∘ (fun x : Nat × Report => .reporting x.1 x.2) =
        fun x => some x.1 := rfl
    rw [tasks, List.filterMap_append, hidle, List.nil_append, List.filterMap_map, hcomp,
      List.filterMap_eq_map']
  rw [List.perm_ext_iff_of_nodup (hsent ▸ hf.accounts.distinct) List.nodup_range]
  intro i
  rw [← hsent, hf.accounts.taken, List.mem_range]
  exact ⟨fun h => h.2, fun hlt => ⟨Nat.lt_of_lt_of_le hlt hpast, hlt⟩⟩

/-- When all workers are done every path is settled, and its outcome is in its report. -/
theorem reports_of_finished (hf : Follows paths pool c) (hfinished : pool.Finished)
    (hne : pool.workers ≠ []) :
    (pool.reports paths.length).length = paths.length ∧
      ∀ i p, paths[i]? = some p → ∃ outcome, c.phase i = .settled outcome ∧
        (pool.reports paths.length)[i]? = some ⟨p, outcome⟩ := by
  have hsent := sent_perm_of_finished hf hfinished hne
  have hkeys : (pool.shared.sent.reverse.map (·.1)).Nodup := by
    rw [List.map_reverse, (List.reverse_perm _).nodup_iff]
    exact hsent.nodup_iff.mpr List.nodup_range
  have hlookup : ∀ i p, paths[i]? = some p → ∃ outcome, c.phase i = .settled outcome ∧
      pool.shared.sent.reverse.lookup i = some ⟨p, outcome⟩ := by
    intro i p hp
    have hlt : i < paths.length := (List.getElem?_eq_some_iff.mp hp).1
    have hmem : i ∈ pool.shared.sent.map (·.1) := hsent.mem_iff.mpr (List.mem_range.mpr hlt)
    obtain ⟨⟨j, r⟩, hr, rfl⟩ := List.mem_map.mp hmem
    obtain ⟨hpath, hphase⟩ := hf.accounts.fits (.reporting j r)
      (List.mem_append_right _ (List.mem_map.mpr ⟨(j, r), hr, rfl⟩))
    have hpr : r.path = p := Option.some.inj (hpath.symm.trans hp)
    refine ⟨r.outcome, hphase, ?_⟩
    rw [lookup_of_mem hkeys (List.mem_reverse.mpr hr), ← hpr]
  obtain ⟨hlen, hget⟩ := filterMap_range_of_isSome
    (f := fun i => pool.shared.sent.reverse.lookup i) (n := paths.length) fun i hi => by
      obtain ⟨outcome, -, hfound⟩ := hlookup i _ (List.getElem?_eq_getElem hi)
      exact Option.isSome_iff_exists.mpr ⟨_, hfound⟩
  refine ⟨hlen, fun i p hp => ?_⟩
  obtain ⟨outcome, hphase, hfound⟩ := hlookup i p hp
  exact ⟨outcome, hphase, (hget i (List.getElem?_eq_some_iff.mp hp).1).trans hfound⟩

/-- When all workers are done each report that was sent stands in its place. -/
theorem report_of_sent (hf : Follows paths pool c) (hfinished : pool.Finished) (hne : pool.workers ≠ [])
    {i : Nat} {r : Report} (hsent : (i, r) ∈ pool.shared.sent) :
    (pool.reports paths.length)[i]? = some r := by
  obtain ⟨hpath, hphase⟩ := hf.accounts.fits (.reporting i r)
    (List.mem_append_right _ (List.mem_map.mpr ⟨(i, r), hsent, rfl⟩))
  obtain ⟨outcome, hphase', hreport⟩ := (reports_of_finished hf hfinished hne).2 i _ hpath
  cases hphase.symm.trans hphase'
  exact hreport

/-- When all workers are done the reports bear the paths, in order. -/
theorem map_path_reports_of_finished (hf : Follows paths pool c) (hfinished : pool.Finished)
    (hne : pool.workers ≠ []) : (pool.reports paths.length).map (·.path) = paths := by
  obtain ⟨hlen, hreports⟩ := reports_of_finished hf hfinished hne
  apply Report.map_path_eq hlen
  intro i p hp
  obtain ⟨outcome, -, hreport⟩ := hreports i p hp
  exact ⟨outcome, hreport⟩

end Finished

end Pool

end FacetQuery

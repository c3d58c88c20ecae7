import FacetQuery.Batch

/-!
# `FacetQuery.Batch.Pool` — a batch in the hands of several workers

Workers share the files, a cursor over the paths and the reports that were sent. Each takes the path under
the cursor, considers it, writes its output step by step if there is one, sends its report, and takes the
next, until no path is left. Any worker may take the next step at any time: `Steps` are all the ways in
which a batch can go.

The reports that were sent are put in the order of the paths (`Pool.reports`). `run_steps` says that
`Batch.run` is the way that a single worker goes.
-/

namespace FacetQuery

/-- What a worker is at. -/
inductive Activity where
  /-- About to take a path. -/
  | free
  /-- With a path that is not yet considered. -/
  | holding (index : Nat) (path : Path)
  /-- Writing the output for a path. -/
  | writing (index : Nat) (path : Path) (output : Output) (stage : Writing)
  /-- With an outcome that is not yet sent. -/
  | reporting (index : Nat) (report : Report)
  /-- Done: no path was left. -/
  | stopped

/-- What the workers share: the files, the index of the next path, and the reports that were sent. -/
structure Shared where
  store : FileStore
  next : Nat
  sent : List (Nat × Report)

namespace Activity

/-- The activity after a path was considered. -/
def after (i : Nat) (p : Path) : Outcome ⊕ Output → Activity
  | .inl outcome => .reporting i ⟨p, outcome⟩
  | .inr o => .writing i p o .ready

/-- One step of a worker. -/
inductive Step (b : Batch) (cancelled : Bool) (fresh : Place → Prop) (paths : List Path) :
    Shared × Activity → Shared × Activity → Prop
  | take {s p} (h : paths[s.next]? = some p) :
      Step b cancelled fresh paths (s, .free) ({ s with next := s.next + 1 }, .holding s.next p)
  | stop {s} (h : paths[s.next]? = none) :
      Step b cancelled fresh paths (s, .free) ({ s with next := s.next + 1 }, .stopped)
  | consider {s i p} :
      Step b cancelled fresh paths (s, .holding i p)
        (s, .after i p (b.consider cancelled s.store (paths.take i) p).value)
  | write {s i p o w t x} (h : Output.Step fresh o (s.store, w) (t, x)) :
      Step b cancelled fresh paths (s, .writing i p o w) ({ s with store := t }, .writing i p o x)
  | conclude {s i p o r} :
      Step b cancelled fresh paths (s, .writing i p o (.ended r))
        (s, .reporting i ⟨p, (Batch.conclude p o r).value⟩)
  | send {s i r} :
      Step b cancelled fresh paths (s, .reporting i r)
        ({ s with sent := s.sent ++ [(i, r)] }, .free)

end Activity

/-- The workers of a batch and what they share. -/
structure Pool where
  shared : Shared
  workers : List Activity

namespace Pool

/-- A number of workers, none of which has done anything. -/
def start (store : FileStore) (workers : Nat) : Pool :=
  ⟨⟨store, 0, []⟩, List.replicate workers .free⟩

/-- Some worker gets one step further. -/
inductive Step (b : Batch) (cancelled : Bool) (fresh : Place → Prop) (paths : List Path) :
    Pool → Pool → Prop
  | step {s t before w x after} (h : Activity.Step b cancelled fresh paths (s, w) (t, x)) :
      Step b cancelled fresh paths ⟨s, before ++ w :: after⟩ ⟨t, before ++ x :: after⟩

/-- Any number of steps, in any order of the workers. -/
inductive Steps (b : Batch) (cancelled : Bool) (fresh : Place → Prop) (paths : List Path) :
    Pool → Pool → Prop
  | refl {c} : Steps b cancelled fresh paths c c
  | tail {c d e} : Steps b cancelled fresh paths c d → Step b cancelled fresh paths d e →
      Steps b cancelled fresh paths c e

/-- Every worker is done. -/
def Finished (p : Pool) : Prop := ∀ w ∈ p.workers, w = .stopped

/-- The reports that were sent, in the order of the first `n` paths; of several for one path the last. -/
def reports (p : Pool) (n : Nat) : List Report :=
  (List.range n).filterMap fun i => p.shared.sent.reverse.lookup i

/-! ## One worker -/

section Alone

variable {b : Batch} {cancelled : Bool} {fresh : Place → Prop} {paths : List Path}

theorem Steps.trans {c d e : Pool} (h : Steps b cancelled fresh paths c d)
    (h' : Steps b cancelled fresh paths d e) : Steps b cancelled fresh paths c e := by
  induction h' with
  | refl => exact h
  | tail _ hstep ih => exact .tail ih hstep

/-- A step of the only worker. -/
theorem Steps.alone {s t : Shared} {w x : Activity}
    (h : Activity.Step b cancelled fresh paths (s, w) (t, x)) :
    Steps b cancelled fresh paths ⟨s, [w]⟩ ⟨t, [x]⟩ :=
  .tail .refl (show Step b cancelled fresh paths ⟨s, [] ++ w :: []⟩ ⟨t, [] ++ x :: []⟩ from .step h)

/-- The only worker writes an output. -/
theorem Steps.alone_writing {i : Nat} {p : Path} {o : Output} {n : Nat} {sent : List (Nat × Report)}
    {c d : FileStore × Writing} (h : Output.Steps fresh o c d) :
    Steps b cancelled fresh paths ⟨⟨c.1, n, sent⟩, [.writing i p o c.2]⟩
      ⟨⟨d.1, n, sent⟩, [.writing i p o d.2]⟩ := by
  induction h with
  | refl => exact .refl
  | tail _ hstep ih => exact ih.trans (.alone (.write hstep))

/-- The only worker deals with the next path as `Batch.attend` does. -/
theorem Steps.alone_attend (hfresh : ∀ (s : FileStore) dir p, fresh (dir ++ [s.freeName dir p]))
    {s : FileStore} {n : Nat} {sent : List (Nat × Report)} {p : Path} (h : paths[n]? = some p) :
    Steps b cancelled fresh paths ⟨⟨s, n, sent⟩, [.free]⟩
      ⟨⟨(b.attend cancelled s (paths.take n) p).value.2, n + 1,
        sent ++ [(n, ⟨p, (b.attend cancelled s (paths.take n) p).value.1⟩)]⟩, [.free]⟩ := by
  refine (Steps.alone (.take h)).trans ((Steps.alone .consider).trans ?_)
  simp only [Batch.attend, Logged.value_bind]
  cases (b.consider cancelled s (paths.take n) p).value with
  | inl outcome => exact .alone .send
  | inr o =>
      exact (Steps.alone_writing (o.write_steps s fun dir => hfresh s dir o.path)).trans
        ((Steps.alone .conclude).trans (.alone .send))

/-- The only worker goes the way of `Batch.runFrom`. -/
theorem Steps.alone_runFrom (hfresh : ∀ (s : FileStore) dir p, fresh (dir ++ [s.freeName dir p]))
    (earlier rest : List Path) (hpaths : paths = earlier ++ rest) (s : FileStore)
    (sent : List (Nat × Report)) :
    Steps b cancelled fresh paths ⟨⟨s, earlier.length, sent⟩, [.free]⟩
      ⟨⟨(b.runFrom cancelled s earlier rest).value.2, paths.length + 1,
        sent ++ ((b.runFrom cancelled s earlier rest).value.1.zipIdx earlier.length).map
          fun (r, i) => (i, r)⟩, [.stopped]⟩ := by
  induction rest generalizing earlier s sent with
  | nil =>
      simp only [Batch.runFrom, Logged.value_pure, List.zipIdx_nil, List.map_nil, List.append_nil]
      have hlen : earlier.length = paths.length := by simp [hpaths]
      rw [hlen]
      exact .alone (.stop (by simp))
  | cons p ps ih =>
      have hget : paths[earlier.length]? = some p := by simp [hpaths]
      have htake : paths.take earlier.length = earlier := by simp [hpaths]
      have hnext := ih (earlier ++ [p]) (by simp [hpaths])
        (b.attend cancelled s earlier p).value.2
        (sent ++ [(earlier.length, ⟨p, (b.attend cancelled s earlier p).value.1⟩)])
      have hfirst : Steps b cancelled fresh paths ⟨⟨s, earlier.length, sent⟩, [.free]⟩ _ :=
        .alone_attend hfresh hget
      rw [htake] at hfirst
      refine hfirst.trans ?_
      simpa [Batch.runFrom] using hnext

end Alone

/-! ## Reports in order -/

theorem lookup_reverse_zipIdx {α : Type} (rs : List α) (k i : Nat) :
    ((rs.zipIdx k).map fun (r, i) => (i, r)).reverse.lookup i =
      if k ≤ i then rs[i - k]? else none := by
  induction rs generalizing k with
  | nil => simp
  | cons r rs ih =>
      simp only [List.zipIdx_cons, List.map_cons, List.reverse_cons, List.lookup_append, ih,
        List.lookup_cons, List.lookup_nil]
      rcases Nat.lt_trichotomy i k with h | h | h
      · have hne : (i == k) = false := by simp [Nat.ne_of_lt h]
        simp [hne, Nat.not_le_of_lt h, Nat.not_le_of_lt (Nat.lt_succ_of_lt h)]
      · subst h
        rw [if_neg (Nat.not_succ_le_self i)]
        simp
      · have hne : (i == k) = false := by simp [Nat.ne_of_gt h]
        have hsub : i - k = i - (k + 1) + 1 := by omega
        simp [hne, Nat.le_of_lt h, Nat.succ_le_of_lt h, hsub]

theorem filterMap_getElem?_range {α : Type} (rs : List α) :
    ((List.range rs.length).filterMap fun i => rs[i]?) = rs := by
  induction rs with
  | nil => rfl
  | cons r rs ih =>
      simp only [List.length_cons, List.range_succ_eq_map, List.filterMap_cons,
        List.getElem?_cons_zero, List.filterMap_map]
      simpa [Function.comp_def] using ih

/-- `Batch.run` is a way in which a batch can go: that of a single worker. -/
theorem run_steps (b : Batch) (cancelled : Bool) {fresh : Place → Prop}
    (hfresh : ∀ (s : FileStore) dir p, fresh (dir ++ [s.freeName dir p])) (store : FileStore)
    (paths : List Path) :
    ∃ pool, Steps b cancelled fresh paths (start store 1) pool ∧ pool.Finished ∧
      pool.reports paths.length = (b.run cancelled store paths).value.1 ∧
      pool.shared.store = (b.run cancelled store paths).value.2 := by
  refine ⟨_, Steps.alone_runFrom hfresh [] paths rfl store [], by simp [Finished], ?_, rfl⟩
  have hlen : paths.length = (b.run cancelled store paths).value.1.length := by
    simpa using congrArg List.length (b.map_path_run cancelled store paths).symm
  simp only [reports, List.nil_append, lookup_reverse_zipIdx, List.length_nil, Nat.zero_le, if_true,
    Nat.sub_zero]
  rw [hlen]
  exact filterMap_getElem?_range _

end Pool

end FacetQuery

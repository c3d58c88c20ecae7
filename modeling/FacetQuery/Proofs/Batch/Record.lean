import FacetQuery.Proofs.Batch.Alone
import FacetQuery.Proofs.Batch.Course

/-!
# `FacetQuery.Proofs.Batch.Record` — every path is dealt with once

`Pool.Recorded` is a run together with a record of who did what: one entry for each step, with the number of the
worker and what it did to which index. The batch may be cancelled while the run is on, so each step reads the
token anew.

In the end the record says the same of every index (`Pool.one_pass_each`): one worker took it, considered it
once, wrote its output if there was one, and sent one report, all by itself. That is an invariant of one step
(`Pool.Kept.step`): what is recorded of an index tells what it is at in the hands that have it, and since an
index is in one pair of hands at most (`Accounts`), nobody else can add to it. The reports may be sent in any
order; each bears the number of its path, so they can be put in order.

## Contents
- `Deed`, `Activity.deed` and `Pool.Recorded`, runs with a record.
- `Activity.Told` and `Pool.Kept`, what a record says of an index, step by step.
- `Activity.Idle`, what workers are at in a batch that was cancelled before it began.
- `Pool.one_pass_each`, and two runs of two workers: one that converts, one that was cancelled.
-/

namespace FacetQuery

/-! ## Records -/

/-- What a worker does in one step. -/
inductive Deed where
  | takes (index : Nat)
  | considers (index : Nat)
  | writes (index : Nat)
  | concludes (index : Nat)
  | sends (index : Nat)
  /-- It finds no path left. -/
  | stops
  deriving DecidableEq

/-- The index that it is done to. -/
def Deed.index? : Deed → Option Nat
  | takes i | considers i | writes i | concludes i | sends i => some i
  | stops => none

/-- What a worker does next, with the cursor at `next`. -/
def Activity.deed (paths : List Path) (next : Nat) : Activity → Deed
  | .free => if next < paths.length then .takes next else .stops
  | .holding i _ => .considers i
  | .writing i _ _ (.ended _) => .concludes i
  | .writing i _ _ _ => .writes i
  | .reporting i _ => .sends i
  | .stopped => .stops

/-- Which worker did what, in the order in which it was done. -/
abbrev Deeds := List (Nat × Deed)

/-- What one worker did. -/
def Deeds.of (k : Nat) (ds : List Deed) : Deeds := ds.map fun d => (k, d)

/-- What is recorded of one index. -/
def Deeds.about (es : Deeds) (i : Nat) : Deeds := es.filter fun e => e.2.index? = some i

theorem Deeds.about_append_of_eq (es : Deeds) (k : Nat) {d : Deed} {i : Nat} (h : d.index? = some i) :
    about (es ++ [(k, d)]) i = es.about i ++ [(k, d)] := by
  simp [about, List.filter_append, h]

theorem Deeds.about_append_of_ne (es : Deeds) (k : Nat) {d : Deed} {i : Nat} (h : d.index? ≠ some i) :
    about (es ++ [(k, d)]) i = es.about i := by
  simp [about, List.filter_append, h]

/-- A run with its record. Each step reads the token of cancellation anew, and may read what `token` allows. -/
inductive Pool.Recorded (b : Batch) (token : Bool → Prop) (fresh : Place → Prop) (paths : List Path)
    (c : Pool) : Deeds → Pool → Prop
  | refl : Pool.Recorded b token fresh paths c [] c
  | tail {es s t before w x after cancelled}
      (h : Pool.Recorded b token fresh paths c es ⟨s, before ++ w :: after⟩) (htoken : token cancelled)
      (hstep : Activity.Step b cancelled fresh paths (s, w) (t, x)) :
      Pool.Recorded b token fresh paths c (es ++ [(before.length, w.deed paths s.next)])
        ⟨t, before ++ x :: after⟩

section Records

variable {b : Batch} {cancelled : Bool} {token : Bool → Prop} {fresh : Place → Prop}
  {paths : List Path}

/-- Every run has a record, and only runs have one. -/
theorem Pool.steps_iff_exists_recorded {c d : Pool} : Pool.Steps b cancelled fresh paths c d ↔
    ∃ es, Pool.Recorded b (fun now => now = cancelled) fresh paths c es d := by
  constructor
  · intro h
    induction h with
    | refl => exact ⟨[], .refl⟩
    | tail _ hstep ih =>
        obtain ⟨es, hes⟩ := ih
        cases hstep with
        | step hstep => exact ⟨_, .tail hes rfl hstep⟩
  · rintro ⟨es, h⟩
    induction h with
    | refl => exact .refl
    | tail _ htoken hstep ih =>
        cases htoken
        exact .tail ih (.step hstep)

theorem Pool.Recorded.length_workers {c d : Pool} {es : Deeds}
    (h : Pool.Recorded b token fresh paths c es d) : d.workers.length = c.workers.length := by
  induction h with
  | refl => rfl
  | tail _ _ _ ih => simpa using ih

end Records

/-! ## What a record says of an index -/

/-- What is recorded of an index that worker `k` has in hand, by what it is at. -/
inductive Activity.Told (k i : Nat) : Activity → Deeds → Prop
  | holding {p} : Told k i (.holding i p) (.of k [.takes i])
  | writing {p o w} (n : Nat) :
      Told k i (.writing i p o w) (.of k (.takes i :: .considers i :: List.replicate n (.writes i)))
  | considered {r} : Told k i (.reporting i r) (.of k [.takes i, .considers i])
  | concluded {r} (n : Nat) : Told k i (.reporting i r)
      (.of k (.takes i :: .considers i :: (List.replicate n (.writes i) ++ [.concludes i])))

/-- Worker `k` has taken an index, considered it, written its output if there was one, and sent the report; and
    nobody else has done anything to it. -/
inductive Deeds.Passed (k i : Nat) : Deeds → Prop
  | considered : Passed k i (.of k [.takes i, .considers i, .sends i])
  | concluded (n : Nat) : Passed k i
      (.of k (.takes i :: .considers i :: (List.replicate n (.writes i) ++ [.concludes i, .sends i])))

section Told

variable {b : Batch} {cancelled : Bool} {fresh : Place → Prop} {paths : List Path} {s t : Shared}
  {w x : Activity} {k i : Nat} {es : Deeds}

/-- What is recorded stays right when the worker gets further with the index that it has. -/
theorem Activity.Told.step (h : w.Told k i es)
    (hstep : Activity.Step b cancelled fresh paths (s, w) (t, x)) (hx : x.index? = some i) :
    x.Told k i (es ++ [(k, w.deed paths s.next)]) := by
  cases hstep with
  | take _ => cases h
  | stop _ => cases h
  | send => exact nomatch hx
  | @consider _ j p =>
      cases h
      cases (b.consider cancelled s.store (paths.take i) p).value with
      | inl outcome => exact .considered
      | inr o => exact .writing 0
  | @write _ j p o v u y hwrite =>
      cases h with
      | writing n =>
          have hdeed : (Activity.writing i p o v).deed paths s.next = .writes i := by
            cases hwrite <;> rfl
          have hmore : Deeds.of k (.takes i :: .considers i :: List.replicate n (.writes i)) ++
              [(k, .writes i)] =
                .of k (.takes i :: .considers i :: List.replicate (n + 1) (.writes i)) := by
            simp [Deeds.of, List.replicate_succ']
          rw [hdeed, hmore]
          exact .writing (n + 1)
  | conclude =>
      cases h with
      | writing n =>
          have hmore : Deeds.of k (.takes i :: .considers i :: List.replicate n (.writes i)) ++
              [(k, .concludes i)] = .of k (.takes i :: .considers i ::
                (List.replicate n (.writes i) ++ [.concludes i])) := by
            simp [Deeds.of]
          show Told k i _ (_ ++ [(k, .concludes i)])
          rw [hmore]
          exact .concluded n

/-- The report completes what is recorded. -/
theorem Activity.Told.passed {r : Report} (h : (Activity.reporting i r).Told k i es) :
    Deeds.Passed k i (es ++ [(k, .sends i)]) := by
  cases h with
  | considered => exact .considered
  | concluded n =>
      have hmore : Deeds.of k (.takes i :: .considers i ::
          (List.replicate n (.writes i) ++ [.concludes i])) ++ [(k, .sends i)] =
            .of k (.takes i :: .considers i ::
              (List.replicate n (.writes i) ++ [.concludes i, .sends i])) := by
        simp [Deeds.of]
      rw [hmore]
      exact .concluded n

end Told

/-- What is recorded of each index tells how far the batch has come with it. -/
structure Pool.Kept (paths : List Path) (pool : Pool) (es : Deeds) : Prop where
  told : ∀ (k : Nat) (w : Activity) (i : Nat), pool.workers[k]? = some w → w.index? = some i →
    w.Told k i (es.about i)
  passed : ∀ i r, (i, r) ∈ pool.shared.sent → ∃ k < pool.workers.length, Deeds.Passed k i (es.about i)
  untouched : ∀ i, ¬ (i < pool.shared.next ∧ i < paths.length) → es.about i = []

namespace Pool

section Kept

variable {b : Batch} {cancelled : Bool} {token : Bool → Prop} {fresh : Place → Prop}
  {paths : List Path} {s t : Shared} {before after : List Activity} {w x : Activity} {es : Deeds}

theorem kept_start (paths : List Path) (store : FileStore) (n : Nat) : Kept paths (start store n) [] := by
  constructor
  · intro k w i hw hi
    rw [List.eq_of_mem_replicate (List.mem_of_getElem? hw)] at hi
    exact nomatch hi
  · intro i r hr
    exact nomatch hr
  · intro i _
    rfl

/-- A worker is the one that steps, or another, and then it is at what it was at before. -/
theorem getElem?_workers {k : Nat} {a : Activity} (h : (before ++ x :: after)[k]? = some a)
    (w : Activity) : (k = before.length ∧ a = x) ∨
      (a ∈ before ++ after ∧ (before ++ w :: after)[k]? = some a) := by
  by_cases hlt : k < before.length
  · rw [List.getElem?_append_left hlt] at h ⊢
    exact .inr ⟨List.mem_append_left _ (List.mem_of_getElem? h), h⟩
  · obtain ⟨m, rfl⟩ := Nat.exists_eq_add_of_le (Nat.le_of_not_lt hlt)
    rw [List.getElem?_append_right (Nat.le_add_right _ m), Nat.add_sub_cancel_left] at h ⊢
    cases m with
    | zero => exact .inl ⟨rfl, (Option.some.inj h).symm⟩
    | succ m => exact .inr ⟨List.mem_append_right _ (List.mem_of_getElem? h), h⟩

/-- A worker does something to an index that nobody else has or has sent. -/
theorem Kept.advance (h : Kept paths ⟨s, before ++ w :: after⟩ es) {i : Nat} {d : Deed}
    (hd : d.index? = some i) (hothers : ∀ a ∈ before ++ after, a.index? ≠ some i)
    (hunsent : ∀ r, (i, r) ∉ s.sent) (hpast : i < t.next ∧ i < paths.length) (hnext : s.next ≤ t.next)
    (htold : ∀ j, x.index? = some j →
      j = i ∧ x.Told before.length i (es.about i ++ [(before.length, d)]))
    (hsent : ∀ j r, (j, r) ∈ t.sent → (j, r) ∈ s.sent ∨
      j = i ∧ Deeds.Passed before.length i (es.about i ++ [(before.length, d)])) :
    Kept paths ⟨t, before ++ x :: after⟩ (es ++ [(before.length, d)]) := by
  have hsame := es.about_append_of_eq before.length hd
  have hother : ∀ j, j ≠ i → Deeds.about (es ++ [(before.length, d)]) j = es.about j := by
    intro j hne
    apply Deeds.about_append_of_ne
    rw [hd]
    exact fun heq => hne (Option.some.inj heq).symm
  constructor
  · intro k a j ha hj
    rcases getElem?_workers ha w with ⟨rfl, rfl⟩ | ⟨hmem, hbefore⟩
    · obtain ⟨rfl, hx⟩ := htold j hj
      rwa [hsame]
    · have hne : j ≠ i := fun heq => hothers a hmem (heq ▸ hj)
      rw [hother j hne]
      exact h.told k a j hbefore hj
  · intro j r hr
    have hlength : (before ++ x :: after).length = (before ++ w :: after).length := by simp
    rcases hsent j r hr with hr | ⟨rfl, hpassed⟩
    · have hne : j ≠ i := by
        rintro rfl
        exact hunsent r hr
      rw [hother j hne]
      show ∃ k < (before ++ x :: after).length, _
      rw [hlength]
      exact h.passed j r hr
    · refine ⟨before.length, ?_, ?_⟩
      · show before.length < (before ++ x :: after).length
        simp
      · rwa [hsame]
  · intro j hj
    have hne : j ≠ i := by
      rintro rfl
      exact hj hpast
    rw [hother j hne]
    apply h.untouched
    rintro ⟨hlt, hlen⟩
    exact hj ⟨Nat.lt_of_lt_of_le hlt hnext, hlen⟩

/-- The cursor is past what a worker has in hand. -/
theorem Follows.lt_of_worker {pool : Pool} {c : Course} (hf : Follows paths pool c) {a : Activity}
    (ha : a ∈ pool.workers) {i : Nat} (hi : a.index? = some i) :
    i < pool.shared.next ∧ i < paths.length :=
  hf.accounts.lt_of_index? (List.mem_append_left _ ha) hi

/-- The cursor is past what was sent. -/
theorem Follows.lt_of_sent {pool : Pool} {c : Course} (hf : Follows paths pool c) {i : Nat} {r : Report}
    (hr : (i, r) ∈ pool.shared.sent) : i < pool.shared.next ∧ i < paths.length :=
  hf.accounts.lt_of_index? (List.mem_append_right _ (List.mem_map.mpr ⟨(i, r), hr, rfl⟩)) rfl

/-- What a worker has in hand no other worker has, nor was it sent. -/
theorem Follows.owned {c : Course} (hf : Follows paths ⟨s, before ++ w :: after⟩ c) {i : Nat}
    (hi : w.index? = some i) :
    (∀ a ∈ before ++ after, a.index? ≠ some i) ∧ (∀ r, (i, r) ∉ s.sent) ∧
      i < s.next ∧ i < paths.length := by
  have hne := (hf.accounts.perm (tasks_perm s before after w)).index_ne hi
  refine ⟨fun a ha => hne a (List.mem_append_left _ ha), fun r hr => ?_, ?_⟩
  · exact hne (.reporting i r) (List.mem_append_right _ (List.mem_map.mpr ⟨(i, r), hr, rfl⟩)) rfl
  · exact hf.lt_of_worker (List.mem_append_right _ List.mem_cons_self) hi

/-- A step keeps the record right. -/
theorem Kept.step {c : Course} (h : Kept paths ⟨s, before ++ w :: after⟩ es)
    (hf : Follows paths ⟨s, before ++ w :: after⟩ c)
    (hstep : Activity.Step b cancelled fresh paths (s, w) (t, x)) :
    Kept paths ⟨t, before ++ x :: after⟩ (es ++ [(before.length, w.deed paths s.next)]) := by
  have hself : (before ++ w :: after)[before.length]? = some w := by simp
  -- the worker gets further with an index that it keeps
  have hkeeps : ∀ i, w.index? = some i → x.index? = some i →
      (w.deed paths s.next).index? = some i → t.next = s.next → t.sent = s.sent →
      Kept paths ⟨t, before ++ x :: after⟩ (es ++ [(before.length, w.deed paths s.next)]) := by
    intro i hw hx hd hnext hsent
    obtain ⟨hothers, hunsent, hpast⟩ := hf.owned hw
    refine h.advance hd hothers hunsent (hnext ▸ hpast) (Nat.le_of_eq hnext.symm) ?_ ?_
    · intro j hj
      exact ⟨Option.some.inj (hj.symm.trans hx), (h.told _ w i hself hw).step hstep hx⟩
    · intro j r hr
      exact .inl (hsent ▸ hr)
  cases hstep with
  | take hp =>
      -- nobody has the index that the cursor is at, and nothing is recorded of it
      have hlt : s.next < paths.length := (List.getElem?_eq_some_iff.mp hp).1
      have hnothing : es.about s.next = [] := h.untouched s.next fun hpast => Nat.lt_irrefl _ hpast.1
      rw [show Activity.free.deed paths s.next = .takes s.next from if_pos hlt]
      apply h.advance rfl
      · intro a ha hi
        have hworker : a ∈ before ++ .free :: after := by
          rw [List.mem_append, List.mem_cons]
          exact (List.mem_append.mp ha).imp id .inr
        exact Nat.lt_irrefl _ (hf.lt_of_worker hworker hi).1
      · intro r hr
        exact Nat.lt_irrefl _ (hf.lt_of_sent hr).1
      · exact ⟨Nat.lt_succ_self _, hlt⟩
      · exact Nat.le_succ _
      · intro j hj
        rw [hnothing]
        exact ⟨(Option.some.inj hj).symm, .holding⟩
      · intro j r hr
        exact .inl hr
  | stop hp =>
      have hle : paths.length ≤ s.next := List.getElem?_eq_none_iff.mp hp
      rw [show Activity.free.deed paths s.next = .stops from if_neg (Nat.not_lt_of_le hle)]
      have hsame : ∀ i, Deeds.about (es ++ [(before.length, .stops)]) i = es.about i := by
        intro i
        apply Deeds.about_append_of_ne
        exact Option.some_ne_none i |>.symm
      constructor
      · intro k a i ha hi
        rw [hsame]
        rcases getElem?_workers ha .free with ⟨-, rfl⟩ | ⟨-, hbefore⟩
        · cases hi
        · exact h.told k a i hbefore hi
      · intro i r hr
        rw [hsame]
        simpa using h.passed i r hr
      · intro i hi
        rw [hsame]
        apply h.untouched
        rintro ⟨hlt, hlen⟩
        exact hi ⟨Nat.lt_succ_of_lt hlt, hlen⟩
  | @consider _ i p =>
      apply hkeeps i rfl _ rfl rfl rfl
      cases (b.consider cancelled s.store (paths.take i) p).value <;> rfl
  | @write _ i p o v u y hwrite =>
      apply hkeeps i rfl rfl _ rfl rfl
      cases hwrite <;> rfl
  | @conclude _ i p o r => exact hkeeps i rfl rfl rfl rfl rfl
  | @send _ i r =>
      obtain ⟨hothers, hunsent, hpast⟩ := hf.owned rfl
      refine h.advance rfl hothers hunsent hpast (Nat.le_refl _) ?_ ?_
      · intro j hj
        cases hj
      · intro j r' hr
        rcases List.mem_append.mp hr with hr | hr
        · exact .inl hr
        · cases List.mem_singleton.mp hr
          exact .inr ⟨rfl, (h.told _ _ i hself rfl).passed⟩

/-- At every moment of a run the record is right. -/
theorem Recorded.kept {store : FileStore} {n : Nat} {pool : Pool}
    (h : Recorded b token fresh paths (start store n) es pool) :
    ∃ c, Follows paths pool c ∧ Kept paths pool es := by
  induction h with
  | refl => exact ⟨_, follows_start store n, kept_start paths store n⟩
  | tail _ _ hstep ih =>
      obtain ⟨c, hfollows, hkept⟩ := ih
      obtain ⟨d, hfollows', -⟩ : ∃ d, Follows paths ⟨_, _ ++ _ :: _⟩ d ∧
          (d = c ∨ Course.Step b _ fresh (fun _ => True) paths c d) :=
        follows_step hfollows hstep fun _ _ _ _ _ _ _ _ => trivial
      exact ⟨d, hfollows', hkept.step hfollows hstep⟩

end Kept

end Pool

/-! ## Batches that were cancelled before they began -/

/-- The worker writes nothing, and what it has to report is that the batch was cancelled. -/
def Activity.Idle : Activity → Prop
  | .writing _ _ _ _ => False
  | .reporting _ r => r.outcome = .cancelled
  | _ => True

section Cancelled

variable {b : Batch} {token : Bool → Prop} {fresh : Place → Prop} {paths : List Path} {es : Deeds}

/-- A step of a cancelled batch leaves the files alone. -/
theorem Activity.Step.idle {s t : Shared} {w x : Activity}
    (h : Activity.Step b true fresh paths (s, w) (t, x)) (hw : w.Idle) :
    t.store = s.store ∧ x.Idle ∧ ∀ e ∈ t.sent, e ∈ s.sent ∨ e.2.outcome = .cancelled := by
  cases h with
  | take _ => exact ⟨rfl, trivial, fun e he => .inl he⟩
  | stop _ => exact ⟨rfl, trivial, fun e he => .inl he⟩
  | consider => exact ⟨rfl, rfl, fun e he => .inl he⟩
  | write _ => exact hw.elim
  | conclude => exact hw.elim
  | @send _ i r =>
      refine ⟨rfl, trivial, ?_⟩
      intro e he
      rcases List.mem_append.mp he with he | he
      · exact .inl he
      · cases List.mem_singleton.mp he
        exact .inr hw

/-- If every step reads that the batch is cancelled, nothing else is ever reported and no file changes. -/
theorem Pool.Recorded.idle (htoken : ∀ cancelled, token cancelled → cancelled = true) {store : FileStore}
    {n : Nat} {pool : Pool} (h : Pool.Recorded b token fresh paths (Pool.start store n) es pool) :
    pool.shared.store = store ∧ (∀ a ∈ pool.workers, a.Idle) ∧
      ∀ e ∈ pool.shared.sent, e.2.outcome = .cancelled := by
  induction h with
  | refl =>
      refine ⟨rfl, fun a ha => ?_, fun e he => ?_⟩
      · rw [List.eq_of_mem_replicate ha]
        trivial
      · exact nomatch he
  | @tail _ s t before w x after _ _ hcancelled hstep ih =>
      obtain ⟨hstore, hidle, hsent⟩ := ih
      cases htoken _ hcancelled
      obtain ⟨hstore', hx, hsent'⟩ := hstep.idle (hidle w (by simp))
      refine ⟨hstore'.trans hstore, fun a ha => ?_, fun e he => ?_⟩
      · rcases List.mem_append.mp ha with ha | ha
        · exact hidle a (List.mem_append_left _ ha)
        · rcases List.mem_cons.mp ha with rfl | ha
          · exact hx
          · exact hidle a (List.mem_append_right _ (List.mem_cons_of_mem _ ha))
      · exact (hsent' e he).elim (hsent e) id

end Cancelled

/-! ## Every run -/

namespace Pool

/-- What stands in the list of reports was sent. -/
theorem mem_sent_of_mem_reports {pool : Pool} {n : Nat} {r : Report} (h : r ∈ pool.reports n) :
    ∃ i, (i, r) ∈ pool.shared.sent := by
  obtain ⟨i, -, hi⟩ := List.mem_filterMap.mp h
  obtain ⟨l, l', hsent, -⟩ := List.lookup_eq_some_iff.mp hi
  refine ⟨i, List.mem_reverse.mp ?_⟩
  rw [hsent]
  exact List.mem_append_right l List.mem_cons_self

section Finished

variable {b : Batch} {token : Bool → Prop} {fresh : Place → Prop} {paths : List Path}
  {store : FileStore} {workers : Nat} {es : Deeds} {pool : Pool}

/-- **Each path is dealt with once, by one worker, and gets one report in its place.** Take any paths, any
    settings, any number of workers, any order of their steps and any use of the token of cancellation. When all
    workers are done, each index below the number of paths was taken by one worker, which has considered it once,
    written its output if there was one, and sent one report; no other index was touched. The reports sent are
    one for each index, and in order they bear the paths. If the batch was cancelled before it began, every report
    says so, and the files are those from before. -/
theorem one_pass_each (hworkers : 0 < workers)
    (hrun : Recorded b token fresh paths (start store workers) es pool) (hfinished : pool.Finished) :
    (∀ i < paths.length, ∃ k < workers, Deeds.Passed k i (es.about i)) ∧
      (∀ i, paths.length ≤ i → es.about i = []) ∧
      (pool.shared.sent.map (·.1)).Perm (List.range paths.length) ∧
      (pool.reports paths.length).map (·.path) = paths ∧
      ((∀ cancelled, token cancelled → cancelled = true) →
        (∀ r ∈ pool.reports paths.length, r.outcome = .cancelled) ∧ pool.shared.store = store) := by
  obtain ⟨c, hfollows, hkept⟩ := hrun.kept
  have hlength : pool.workers.length = workers := by simpa [start] using hrun.length_workers
  have hne : pool.workers ≠ [] := List.ne_nil_of_length_pos (hlength ▸ hworkers)
  have hsent := sent_perm_of_finished hfollows hfinished hne
  refine ⟨?_, ?_, hsent, map_path_reports_of_finished hfollows hfinished hne, ?_⟩
  · intro i hi
    have hmem : i ∈ pool.shared.sent.map (·.1) := hsent.mem_iff.mpr (List.mem_range.mpr hi)
    obtain ⟨⟨j, r⟩, hr, rfl⟩ := List.mem_map.mp hmem
    rw [← hlength]
    exact hkept.passed j r hr
  · intro i hi
    apply hkept.untouched
    rintro ⟨-, hlt⟩
    omega
  · intro htoken
    obtain ⟨hstore, -, hcancelled⟩ := hrun.idle htoken
    refine ⟨fun r hr => ?_, hstore⟩
    obtain ⟨i, hi⟩ := mem_sent_of_mem_reports hr
    exact hcancelled _ hi

end Finished

/-! ### Two workers -/

section Two

variable {b : Batch} {token : Bool → Prop} {cancelled : Bool} {fresh : Place → Prop} {paths : List Path}
  {c : Pool} {es : Deeds} {s t : Shared} {v w x : Activity}

/-- The first of two workers gets one step further. -/
theorem Recorded.first (h : Recorded b token fresh paths c es ⟨s, [w, v]⟩) (htoken : token cancelled)
    (hstep : Activity.Step b cancelled fresh paths (s, w) (t, x)) :
    Recorded b token fresh paths c (es ++ [(0, w.deed paths s.next)]) ⟨t, [x, v]⟩ :=
  @Recorded.tail _ _ _ _ _ _ s t [] w x [v] cancelled h htoken hstep

/-- The second of two workers gets one step further. -/
theorem Recorded.second (h : Recorded b token fresh paths c es ⟨s, [v, w]⟩) (htoken : token cancelled)
    (hstep : Activity.Step b cancelled fresh paths (s, w) (t, x)) :
    Recorded b token fresh paths c (es ++ [(1, w.deed paths s.next)]) ⟨t, [v, x]⟩ :=
  @Recorded.tail _ _ _ _ _ _ s t [v] w x [] cancelled h htoken hstep

end Two

/-- Two files in the current directory. -/
def twoFiles : FileStore :=
  ⟨["w"], [(["w"], .directory), (["w", "a.txt"], .file "model=FIRST\n".toUTF8),
    (["w", "b.txt"], .file "model=SECOND\n".toUTF8)]⟩

/-- Each of the two files has an output that is yet to be written. -/
theorem consider_twoFiles :
    (Batch.consider ⟨Settings.default, .files⟩ false twoFiles [] ⟨"a.txt"⟩).value =
        .inr ⟨⟨"a.yaml"⟩, "model: \"FIRST\"\n", true⟩ ∧
      (Batch.consider ⟨Settings.default, .files⟩ false twoFiles [⟨"a.txt"⟩] ⟨"b.txt"⟩).value =
        .inr ⟨⟨"b.yaml"⟩, "model: \"SECOND\"\n", true⟩ := by
  have hfirst : (Batch.prepare ⟨Settings.default, .files⟩ twoFiles ⟨"a.txt"⟩).value =
      .inr "model: \"FIRST\"\n" :=
    (Batch.prepare_of_file rfl (show twoFiles.resolve "a.txt".toList = .ok ["w", "a.txt"] from rfl)
      rfl).trans (by decide +kernel)
  have hsecond : (Batch.prepare ⟨Settings.default, .files⟩ twoFiles ⟨"b.txt"⟩).value =
      .inr "model: \"SECOND\"\n" :=
    (Batch.prepare_of_file rfl (show twoFiles.resolve "b.txt".toList = .ok ["w", "b.txt"] from rfl)
      rfl).trans (by decide +kernel)
  constructor
  · rw [Batch.value_consider rfl]
    exact Batch.judge_eq_inr_iff.mpr ⟨rfl, rfl, _, hfirst, rfl⟩
  · rw [Batch.value_consider (by decide)]
    exact Batch.judge_eq_inr_iff.mpr ⟨rfl, rfl, _, hsecond, rfl⟩

/-- Two runs of two workers with two paths. In the first no step reads that the batch is cancelled: each worker
    converts a path while the other does, step against step, and the second is the first to report. In the
    second run every step reads that it is: the second worker is the first to report again, and no file is
    written. -/
theorem one_pass_each_two_workers :
    (∃ es pool, Recorded ⟨Settings.default, .files⟩ (fun cancelled => cancelled = false) (fun _ => True)
        [⟨"a.txt"⟩, ⟨"b.txt"⟩] (start twoFiles 2) es pool ∧
      pool.Finished ∧
      (∀ i < 2, ∃ k < 2, Deeds.Passed k i (es.about i)) ∧
      es.about 0 = .of 0 [.takes 0, .considers 0, .writes 0, .writes 0, .writes 0, .concludes 0, .sends 0] ∧
      es.about 1 = .of 1 [.takes 1, .considers 1, .writes 1, .writes 1, .writes 1, .concludes 1, .sends 1] ∧
      pool.shared.sent =
        [(1, ⟨⟨"b.txt"⟩, .written ⟨"b.yaml"⟩⟩), (0, ⟨⟨"a.txt"⟩, .written ⟨"a.yaml"⟩⟩)] ∧
      (pool.reports 2).map (·.path) = [⟨"a.txt"⟩, ⟨"b.txt"⟩] ∧
      pool.shared.store.get? ["w", "a.yaml"] = some (.file "model: \"FIRST\"\n".toUTF8) ∧
      pool.shared.store.get? ["w", "b.yaml"] = some (.file "model: \"SECOND\"\n".toUTF8)) ∧
    ∃ es pool, Recorded ⟨Settings.default, .files⟩ (fun cancelled => cancelled = true) (fun _ => True)
        [⟨"a.txt"⟩, ⟨"b.txt"⟩] (start ⟨["w"], [(["w"], .directory)]⟩ 2) es pool ∧
      pool.Finished ∧
      es.about 1 = [(1, .takes 1), (1, .considers 1), (1, .sends 1)] ∧
      pool.shared.sent = [(1, ⟨⟨"b.txt"⟩, .cancelled⟩), (0, ⟨⟨"a.txt"⟩, .cancelled⟩)] ∧
      (pool.reports 2).map (·.path) = [⟨"a.txt"⟩, ⟨"b.txt"⟩] ∧
      (∀ r ∈ pool.reports 2, r.outcome = .cancelled) ∧
      pool.shared.store = ⟨["w"], [(["w"], .directory)]⟩ := by
  constructor
  · have hbegun : Recorded ⟨Settings.default, .files⟩ (fun now => now = false) (fun _ => True)
        [⟨"a.txt"⟩, ⟨"b.txt"⟩] (start twoFiles 2) [] ⟨⟨twoFiles, 0, []⟩, [.free, .free]⟩ := .refl
    have htaken := (hbegun.first rfl (.take rfl)).second rfl (.take rfl)
    have hconsidered := (htaken.second rfl .consider).first rfl .consider
    simp only [List.take_succ_cons, List.take_zero, consider_twoFiles.1, consider_twoFiles.2,
      Activity.after] at hconsidered
    -- from here on each worker has a staging file of its own
    have hcreated := (hconsidered.first rfl
      (.write (@Output.Step.create _ _ _ ["w"] "0.partial" rfl trivial rfl))).second rfl
        (.write (@Output.Step.create _ _ _ ["w"] "1.partial" rfl trivial rfl))
    have hfilled := (hcreated.second rfl (.write .fill)).first rfl (.write .fill)
    have hmoved := (hfilled.second rfl (.write .move)).first rfl (.write .move)
    have hconcluded := (hmoved.second rfl .conclude).first rfl .conclude
    have hsent := (hconcluded.second rfl .send).first rfl .send
    have hrun := (hsent.second rfl (.stop rfl)).first rfl (.stop rfl)
    obtain ⟨hpassed, -, -, hreports, -⟩ :=
      one_pass_each (show 0 < 2 by decide) hrun (by simp [Finished])
    exact ⟨_, _, hrun, by simp [Finished], hpassed, rfl, rfl, rfl, hreports, rfl, rfl⟩
  · have hbegun : Recorded ⟨Settings.default, .files⟩ (fun now => now = true) (fun _ => True)
        [⟨"a.txt"⟩, ⟨"b.txt"⟩] (start ⟨["w"], [(["w"], .directory)]⟩ 2) []
        ⟨⟨⟨["w"], [(["w"], .directory)]⟩, 0, []⟩, [.free, .free]⟩ := .refl
    have htaken := (hbegun.first rfl (.take rfl)).second rfl (.take rfl)
    have hconsidered := (htaken.first rfl .consider).second rfl .consider
    have hsent := (hconsidered.second rfl .send).first rfl .send
    have hrun := (hsent.second rfl (.stop rfl)).first rfl (.stop rfl)
    obtain ⟨-, -, -, hreports, hcancelled⟩ :=
      one_pass_each (show 0 < 2 by decide) hrun (by simp [Finished])
    obtain ⟨houtcomes, hsame⟩ := hcancelled fun _ => id
    exact ⟨_, _, hrun, by simp [Finished], rfl, rfl, hreports, houtcomes, hsame⟩

end Pool

end FacetQuery

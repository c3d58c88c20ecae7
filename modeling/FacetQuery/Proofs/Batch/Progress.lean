import FacetQuery.Proofs.Batch.Course

/-!
# `FacetQuery.Proofs.Batch.Progress` — every run comes to its end

Each step of a worker uses up something: a path that nobody has taken is worth more than all that can be done
with it, and each thing done is worth less than the one before (`Pool.remaining`). So no run goes on forever
(`Pool.run_ends`), whatever the system refuses. And as long as some worker is not done, each such worker can
take a step that the system does not have to refuse (`Activity.exists_step`), so every run can be taken to the
point where all of them are done (`Pool.exists_finished`). Nothing is asked of the paths or the settings.
-/

namespace FacetQuery

/-! ## No run goes on forever -/

/-- How much a worker can still do without taking another path. -/
def Activity.remaining : Activity → Nat
  | .stopped => 0
  | .free => 1
  | .reporting _ _ => 2
  | .writing _ _ _ (.ended _) => 3
  | .writing _ _ _ (.filled _) => 4
  | .writing _ _ _ (.created _) => 5
  | .writing _ _ _ .ready => 6
  | .holding _ _ => 7

/-- How much workers can still do without taking another path. -/
def Activity.remainingOf : List Activity → Nat
  | [] => 0
  | w :: ws => w.remaining + remainingOf ws

theorem Activity.remainingOf_append (ws xs : List Activity) :
    remainingOf (ws ++ xs) = remainingOf ws + remainingOf xs := by
  induction ws with
  | nil => exact (Nat.zero_add _).symm
  | cons w ws ih =>
      show w.remaining + remainingOf (ws ++ xs) = w.remaining + remainingOf ws + remainingOf xs
      rw [ih, Nat.add_assoc]

/-- How much is still to be done: what the workers have in hand, and all there is to do with the paths that
    are left. -/
def Pool.remaining (paths : List Path) (pool : Pool) : Nat :=
  Activity.remainingOf pool.workers + 7 * (paths.length - pool.shared.next)

section Ends

variable {b : Batch} {cancelled : Bool} {fresh : Place → Prop} {paths : List Path}

/-- A step in the writing of an output leaves less to do. -/
theorem Output.Step.remaining_lt {i : Nat} {p : Path} {o : Output} {s t : FileStore} {w x : Writing}
    (h : Output.Step fresh o (s, w) (t, x)) :
    (Activity.writing i p o x).remaining < (Activity.writing i p o w).remaining := by
  cases h <;> exact of_decide_eq_true rfl

/-- A worker that steps leaves less to do, if it does not take a path from those that are left. -/
theorem Activity.Step.remaining_lt {s t : Shared} {w x : Activity}
    (h : Activity.Step b cancelled fresh paths (s, w) (t, x)) :
    x.remaining + 7 * (paths.length - t.next) < w.remaining + 7 * (paths.length - s.next) := by
  cases h with
  | take hp =>
      have hlt := (List.getElem?_eq_some_iff.mp hp).1
      simp only [remaining]
      omega
  | stop hp =>
      simp only [remaining]
      omega
  | @consider _ i p =>
      cases (b.consider cancelled s.store (paths.take i) p).value <;>
        simp only [Activity.after, remaining] <;> omega
  | write hstep => exact Nat.add_lt_add_right hstep.remaining_lt _
  | conclude =>
      simp only [remaining]
      omega
  | send =>
      simp only [remaining]
      omega

theorem Pool.Step.remaining_lt {c d : Pool} (h : Pool.Step b cancelled fresh paths c d) :
    d.remaining paths < c.remaining paths := by
  cases h with
  | step hstep =>
      have hlt := hstep.remaining_lt
      simp only [Pool.remaining, Activity.remainingOf_append, Activity.remainingOf]
      omega

/-- No run goes on forever. -/
theorem Pool.run_ends (run : Nat → Pool) : ¬ ∀ k, Pool.Step b cancelled fresh paths (run k) (run (k + 1)) := by
  intro hrun
  -- after `k` steps at least `k` of what there was to do at first is done
  have hbound : ∀ k, (run k).remaining paths + k ≤ (run 0).remaining paths := by
    intro k
    induction k with
    | zero => exact Nat.le_refl _
    | succ k ih =>
        have hlt := (hrun k).remaining_lt
        omega
  have hover := hbound ((run 0).remaining paths + 1)
  omega

end Ends

/-! ## Every run can be taken to its end -/

section Progress

variable {b : Batch} {cancelled : Bool} {fresh : Place → Prop} {struck : Nat → Prop}
  {paths : List Path}

/-- The writing of an output that has not ended can go on, and the system need not refuse. -/
theorem Output.exists_step
    (hleft : ∀ (s : FileStore) dir, ∃ name, fresh (dir ++ [name]) ∧ s.get? (dir ++ [name]) = none)
    (o : Output) (s : FileStore) {w : Writing} (hw : ∀ r, w ≠ .ended r) :
    ∃ t x, Output.Step fresh o (s, w) (t, x) ∧ ¬ o.Refused s w x := by
  cases w with
  | ready =>
      cases hdir : s.directoryOf o.path with
      | ok dir =>
          obtain ⟨name, hfresh, hfree⟩ := hleft s dir
          exact ⟨_, _, .create hdir hfresh hfree, id⟩
      | error f =>
          refine ⟨_, _, .createFails f, fun ⟨dir, hok⟩ => ?_⟩
          exact nomatch hdir.symm.trans hok
  | created staging => exact ⟨_, _, .fill, id⟩
  | filled staging => exact ⟨_, _, .move, fun h => h rfl⟩
  | ended r => exact absurd rfl (hw r)

/-- A worker that is not done can take a step, and the system need not refuse. -/
theorem Activity.exists_step
    (hleft : ∀ (s : FileStore) dir, ∃ name, fresh (dir ++ [name]) ∧ s.get? (dir ++ [name]) = none)
    (s : Shared) {w : Activity} (hw : w ≠ .stopped) :
    ∃ t x, Activity.Step b cancelled fresh paths (s, w) (t, x) ∧
      ∀ i p o v v', w = .writing i p o v → x = .writing i p o v' → ¬ o.Refused s.store v v' := by
  cases w with
  | stopped => exact absurd rfl hw
  | free =>
      cases hp : paths[s.next]? with
      | some p => exact ⟨_, _, .take hp, fun _ _ _ _ _ he => nomatch he⟩
      | none => exact ⟨_, _, .stop hp, fun _ _ _ _ _ he => nomatch he⟩
  | holding i p => exact ⟨_, _, .consider, fun _ _ _ _ _ he => nomatch he⟩
  | reporting i r => exact ⟨_, _, .send, fun _ _ _ _ _ he => nomatch he⟩
  | writing i p o v =>
      by_cases hended : ∃ r, v = .ended r
      · obtain ⟨r, rfl⟩ := hended
        exact ⟨_, _, .conclude, fun _ _ _ _ _ _ he => nomatch he⟩
      · obtain ⟨t, x, hstep, hrefused⟩ :=
          o.exists_step hleft s.store fun r hr => hended ⟨r, hr⟩
        refine ⟨_, _, .write hstep, fun _ _ _ _ _ he he' => ?_⟩
        cases he
        cases he'
        exact hrefused

/-- A pool that is not done has a worker that is not. -/
theorem Pool.exists_worker {c : Pool} (h : ¬ c.Finished) :
    ∃ before w after, c = ⟨c.shared, before ++ w :: after⟩ ∧ w ≠ .stopped := by
  obtain ⟨w, hw, hne⟩ : ∃ w ∈ c.workers, w ≠ .stopped := by
    simpa [Finished] using h
  obtain ⟨before, after, hworkers⟩ := List.append_of_mem hw
  exact ⟨before, w, after, by rw [← hworkers], hne⟩

/-- What some step keeps as long as a worker is not done, can be kept until all of them are. -/
theorem Pool.exists_finished_of {C : Pool → Prop}
    (hstep : ∀ c, C c → ¬ c.Finished → ∃ d, Pool.Step b cancelled fresh paths c d ∧ C d) {c : Pool}
    (hc : C c) : ∃ d, C d ∧ d.Finished := by
  generalize hm : c.remaining paths = m
  induction m using Nat.strongRecOn generalizing c with
  | ind m ih =>
      by_cases hfinished : c.Finished
      · exact ⟨c, hc, hfinished⟩
      · obtain ⟨d, hd, hcd⟩ := hstep c hc hfinished
        exact ih _ (hm ▸ hd.remaining_lt) hcd rfl

/-- From every point on the workers can all get done, and the system need not refuse. -/
theorem Pool.exists_finished
    (hleft : ∀ (s : FileStore) dir, ∃ name, fresh (dir ++ [name]) ∧ s.get? (dir ++ [name]) = none)
    (c : Pool) : ∃ d, Pool.Run b cancelled fresh struck paths c d ∧ d.Finished := by
  have hgo : ∀ e, Pool.Run b cancelled fresh struck paths c e → ¬ e.Finished →
      ∃ d, Pool.Step b cancelled fresh paths e d ∧ Pool.Run b cancelled fresh struck paths c d := by
    intro e hrun hfinished
    obtain ⟨before, w, after, he, hne⟩ := Pool.exists_worker hfinished
    obtain ⟨t, x, hstep, hrefused⟩ : ∃ t x,
        Activity.Step b cancelled fresh paths (e.shared, w) (t, x) ∧
          ∀ i p o v v', w = .writing i p o v → x = .writing i p o v' →
            ¬ o.Refused e.shared.store v v' := Activity.exists_step hleft e.shared hne
    rw [he] at hrun ⊢
    exact ⟨_, .step hstep, .tail hrun hstep fun i p o v v' hw hx hr =>
      absurd hr (hrefused i p o v v' hw hx)⟩
  exact Pool.exists_finished_of hgo .refl

end Progress

end FacetQuery

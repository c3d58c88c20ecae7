import FacetQuery.Proofs.Batch.Alone

/-!
# `FacetQuery.Proofs.Output.Persistence` — calls that write one path at a time

Any number of calls write outputs to one path, and their steps come in any order: each makes a staging file
of its own, fills it, and moves it into place. The system may refuse any step for a reason of its own, the
move included (`Output.Step.moveFails`).

All that is said here rests on one description of what a step does to the files (`Writers.Change`): it keeps
to the call's own staging file, and only a move that succeeds touches the place of the path. So every place
is explained at every moment (`Writers.Explained`): a staging file stands there, or it is the place of the
path and a call has written it, or it is as it was.

## Contents
- `FileStore.entryAt?`, what a path holds.
- `Writers.Turn` and `Writers.Turns`: the steps of single calls, by index; `Writers.Steps.turns`.
- `Writers.Change`, what a step does, and the `Writers.Invariant` that it keeps.
- `Writers.writes_are_atomic`.
-/

namespace FacetQuery

/-! ## What a path holds -/

namespace FileStore

/-- What stands where a path leads; nothing if it leads nowhere. -/
def entryAt? (s : FileStore) (p : Path) : Option Entry :=
  match s.resolve p.text.toList with
  | .ok place => s.get? place
  | .error _ => none

theorem entryAt?_of_resolve {s : FileStore} {p : Path} {place : Place}
    (h : s.resolve p.text.toList = .ok place) : s.entryAt? p = s.get? place := by
  rw [entryAt?, h]

/-- A path that holds something leads somewhere. -/
theorem exists_resolve_of_entryAt? {s : FileStore} {p : Path} (h : (s.entryAt? p).isSome = true) :
    ∃ place, s.resolve p.text.toList = .ok place ∧ (s.get? place).isSome = true := by
  unfold entryAt? at h
  split at h
  · next place hresolve => exact ⟨place, hresolve, h⟩
  · exact nomatch h

/-- A path holds the same in two stores with the same directories if its place does. -/
theorem SameTree.entryAt?_eq {s t : FileStore} (h : SameTree s t) {p : Path}
    (hget : ∀ place, s.resolve p.text.toList = .ok place → t.get? place = s.get? place) :
    t.entryAt? p = s.entryAt? p := by
  cases hs : s.resolve p.text.toList with
  | ok place => rw [entryAt?_of_resolve hs, entryAt?_of_resolve (h.resolve hs), hget place hs]
  | error f =>
      cases ht : t.resolve p.text.toList with
      | ok place => exact nomatch hs.symm.trans (h.symm.resolve ht)
      | error g => simp only [entryAt?, hs, ht]

end FileStore

/-- What stands under a staging name for an output at this stage, and where. -/
def Output.staged? (o : Output) : Writing → Option (Place × ByteArray)
  | .created staging => some (staging, .empty)
  | .filled staging => some (staging, o.contents.toUTF8)
  | .ready | .ended _ => none

namespace Writers

/-! ## Steps of single calls -/

/-- A step of the call with index `i`, which the system may refuse. -/
inductive Turn (fresh : Place → Prop) (i : Nat) : Writers → Writers → Prop
  | step {c o w t x} (hcall : c.calls[i]? = some (o, w))
      (h : Output.Step fresh o (c.store, w) (t, x)) : Turn fresh i c ⟨t, c.calls.set i (o, x)⟩

/-- Any number of steps, of any calls in any order. -/
inductive Turns (fresh : Place → Prop) : Writers → Writers → Prop
  | refl {c} : Turns fresh c c
  | tail {c d e i} : Turns fresh c d → Turn fresh i d e → Turns fresh c e

/-- The staging file of the call is moved, and what comes of it depends on what stands at its path. -/
def Moves (i : Nat) (c d : Writers) : Prop :=
  ∃ o staging, c.calls[i]? = some (o, .filled staging) ∧
    d = ⟨(c.store.moveInto staging o.path o.overwrite).2,
      c.calls.set i (o, .ended (o.verdict (c.store.moveInto staging o.path o.overwrite).1))⟩

/-- The call has come to its end with this result. -/
def Returned (c : Writers) (i : Nat) (r : Except Fault Unit) : Prop :=
  ∃ o, c.calls[i]? = some (o, .ended r)

section Turns

variable {fresh : Place → Prop} {c d : Writers} {i j : Nat}

/-- The steps of writers that share their files are steps of their calls. -/
theorem Steps.turns (h : Steps fresh c d) : Turns fresh c d := by
  induction h with
  | refl => exact .refl
  | tail _ hstep ih =>
      cases hstep with
      | @step s t before o w x after hstep =>
          have hcall : (before ++ (o, w) :: after)[before.length]? = some (o, w) := by simp
          have hturn := Turn.step (c := ⟨s, before ++ (o, w) :: after⟩) hcall hstep
          rw [show (before ++ (o, w) :: after).set before.length (o, x) = before ++ (o, x) :: after by
            simp] at hturn
          exact .tail ih hturn

/-- A move is a step. -/
theorem Moves.turn (h : Moves i c d) : Turn fresh i c d := by
  obtain ⟨o, staging, hcall, rfl⟩ := h
  exact .step hcall .move

/-- A call that has come to its end stays there. -/
theorem Returned.turn {r : Except Fault Unit} (h : c.Returned i r) (hturn : Turn fresh j c d) :
    d.Returned i r := by
  obtain ⟨o, hended⟩ := h
  refine ⟨o, ?_⟩
  by_cases hij : j = i
  · -- no step starts at the end
    subst hij
    cases hturn with
    | step hcall hstep =>
        cases hended.symm.trans hcall
        cases hstep
  · cases hturn with
    | step hcall hstep => rw [List.getElem?_set_ne hij, hended]

theorem Returned.turns {r : Except Fault Unit} (h : c.Returned i r) (hturns : Turns fresh c d) :
    d.Returned i r := by
  induction hturns with
  | refl => exact h
  | tail _ hturn ih => exact ih.turn hturn

theorem Returned.unique {r r' : Except Fault Unit} (h : c.Returned i r) (h' : c.Returned i r') :
    r = r' := by
  obtain ⟨o, ho⟩ := h
  obtain ⟨o', ho'⟩ := h'
  cases ho.symm.trans ho'
  rfl

end Turns

/-! ## What holds at every moment -/

section Definitions

variable (fresh : Place → Prop) (store : FileStore) (p : Path) (c : Writers)

/-- Why a place holds what it holds. -/
inductive Explained (q : Place) : Prop
  /-- It is that of a staging file. -/
  | staged {i : Nat} {o : Output} {w : Writing} {bytes : ByteArray}
      (hcall : c.calls[i]? = some (o, w)) (h : o.staged? w = some (q, bytes))
  /-- It is that of the path, and a call has written its output there. -/
  | wrote {i : Nat} {o : Output} (hcall : c.calls[i]? = some (o, .ended (.ok ())))
      (hresolve : store.resolve p.text.toList = .ok q)
      (hget : c.store.get? q = some (.file o.contents.toUTF8))
  /-- It is as it was before the calls. -/
  | kept (hget : c.store.get? q = store.get? q)

/-- What holds at every moment of calls that write to `p` and began with the files in `store`. -/
structure Invariant : Prop where
  tree : FileStore.SameTree store c.store
  paths : ∀ (i : Nat) (o : Output) w, c.calls[i]? = some (o, w) → o.path = p
  staged : ∀ (i : Nat) (o : Output) w q bytes, c.calls[i]? = some (o, w) → o.staged? w = some (q, bytes) →
    fresh q ∧ store.get? q = none ∧ c.store.get? q = some (.file bytes)
  apart : ∀ (i j : Nat) (o : Output) w (o' : Output) w' q bytes bytes', c.calls[i]? = some (o, w) →
    c.calls[j]? = some (o', w') → o.staged? w = some (q, bytes) → o'.staged? w' = some (q, bytes') → i = j
  explained : ∀ q, Explained store p c q
  taken : ∀ i, c.Returned i (.ok ()) →
    ∃ place, store.resolve p.text.toList = .ok place ∧ (c.store.get? place).isSome = true

/-- What a call may do to the files in a step from one stage to another: it makes, fills or removes its own
    staging file, and touches the place of the path only if it succeeds. -/
structure Change (o : Output) (w x : Writing) (t : FileStore) : Prop where
  tree : FileStore.SameTree c.store t
  staged : ∀ q bytes, o.staged? x = some (q, bytes) → fresh q ∧ t.get? q = some (.file bytes) ∧
    ((∃ bytes', o.staged? w = some (q, bytes')) ∨ c.store.get? q = none)
  left : ∀ q bytes, o.staged? w = some (q, bytes) →
    (∃ bytes', o.staged? x = some (q, bytes')) ∨ t.get? q = none
  landed : x = .ended (.ok ()) → ∃ place, store.resolve p.text.toList = .ok place ∧
    t.get? place = some (.file o.contents.toUTF8) ∧
    (o.overwrite = false → c.store.get? place = none)
  frame : ∀ q, (∀ bytes, o.staged? w ≠ some (q, bytes)) → (∀ bytes, o.staged? x ≠ some (q, bytes)) →
    (x = .ended (.ok ()) → store.resolve p.text.toList ≠ .ok q) → t.get? q = c.store.get? q

end Definitions

section Invariant

variable {fresh : Place → Prop} {store : FileStore} {p : Path} {c d : Writers} {i : Nat} {o : Output}
  {w x : Writing} {t : FileStore}

/-- Before any call has done anything everything is as it was. -/
theorem invariant_start (fresh : Place → Prop) (store : FileStore) {p : Path} {outputs : List Output}
    (hpath : ∀ o ∈ outputs, o.path = p) : Invariant fresh store p (start store outputs) := by
  have hcall : ∀ {i : Nat} {o : Output} {w : Writing},
      (start store outputs).calls[i]? = some (o, w) → o ∈ outputs ∧ w = .ready := by
    intro i o w h
    obtain ⟨o', ho', heq⟩ := List.mem_map.mp (List.mem_of_getElem? h)
    cases heq
    exact ⟨ho', rfl⟩
  refine ⟨.refl store, fun i o w h => hpath o (hcall h).1, ?_, ?_, fun _ => .kept rfl, ?_⟩
  · intro i o w q bytes h hstaged
    cases (hcall h).2
    exact nomatch hstaged
  · intro i j o w o' w' q bytes bytes' h _ hstaged
    cases (hcall h).2
    exact nomatch hstaged
  · rintro i ⟨o, h⟩
    exact nomatch (hcall h).2

/-- Where nothing stands nobody has a staging file, and nothing stood there before. -/
theorem Invariant.get?_eq_none (h : Invariant fresh store p c) {q : Place}
    (hfree : c.store.get? q = none) : store.get? q = none := by
  cases h.explained q with
  | staged hcall hstaged => exact nomatch hfree.symm.trans (h.staged _ _ _ _ _ hcall hstaged).2.2
  | wrote _ _ hget => exact nomatch hfree.symm.trans hget
  | kept hget => exact hget ▸ hfree

/-! ### Each step is a change -/

/-- A staging file is made, or filled. -/
theorem Change.of_insert {staging : Place} {bytes : ByteArray} (hfresh : fresh staging)
    (hx : o.staged? x = some (staging, bytes)) (hfile : c.store.get? staging ≠ some .directory)
    (hw : (∃ bytes', o.staged? w = some (staging, bytes')) ∨
      (o.staged? w = none ∧ c.store.get? staging = none)) :
    Change fresh store p c o w x (c.store.insert staging (.file bytes)) := by
  have hget := fun q => FileStore.get?_insert c.store staging q (.file bytes)
    (FileStore.ne_nil_of_get?_ne hfile)
  refine ⟨FileStore.sameTree_insert bytes hfile, ?_, ?_, ?_, ?_⟩
  · intro q bytes' hq
    cases hx.symm.trans hq
    exact ⟨hfresh, by rw [hget, if_pos rfl], hw.imp_right And.right⟩
  · intro q bytes' hq
    rcases hw with ⟨_, hw⟩ | ⟨hw, -⟩
    · cases hw.symm.trans hq
      exact .inl ⟨bytes, hx⟩
    · exact nomatch hw.symm.trans hq
  · rintro rfl
    exact nomatch hx
  · intro q _ hne _
    rw [hget, if_neg]
    rintro rfl
    exact hne bytes hx

/-- A staging file is removed, and the call fails. -/
theorem Change.of_erase {staging : Place} {bytes : ByteArray} {f : Fault}
    (hw : o.staged? w = some (staging, bytes)) (hfile : c.store.get? staging ≠ some .directory) :
    Change fresh store p c o w (.ended (.error f)) (c.store.erase staging) := by
  have hget := fun q => FileStore.get?_erase c.store staging q (FileStore.ne_nil_of_get?_ne hfile)
  refine ⟨FileStore.sameTree_erase hfile, fun _ _ h => (nomatch h), ?_, (nomatch ·), ?_⟩
  · intro q bytes' hq
    cases hw.symm.trans hq
    exact .inr (by rw [hget, if_pos rfl])
  · intro q hne _ _
    rw [hget, if_neg]
    rintro rfl
    exact hne bytes hw

/-- A staging file is moved to the place of the path. -/
theorem Change.of_target {staging place : Place} (htree : FileStore.SameTree store c.store)
    (hpath : o.path = p) (hstaging : c.store.get? staging = some (.file o.contents.toUTF8))
    (htarget : c.store.target o.path o.overwrite = .ok place) (hne : staging ≠ place) :
    Change fresh store p c o (.filled staging) (.ended (.ok ()))
      ((c.store.erase staging).insert place (.file o.contents.toUTF8)) := by
  have hkept : c.store.get? staging ≠ some .directory := by simp [hstaging]
  obtain ⟨hresolve, -, hfile, hfree⟩ := FileStore.target_eq_ok_iff.mp htarget
  rw [hpath] at hresolve
  have hget : ∀ q, ((c.store.erase staging).insert place (.file o.contents.toUTF8)).get? q =
      if q = place then some (.file o.contents.toUTF8)
      else if q = staging then none else c.store.get? q := by
    intro q
    rw [FileStore.get?_insert _ _ _ _ (FileStore.ne_nil_of_get?_ne hfile),
      FileStore.get?_erase _ _ _ (FileStore.ne_nil_of_get?_ne hkept)]
  refine ⟨?_, fun _ _ h => (nomatch h), ?_, fun _ => ?_, ?_⟩
  · have hsame := FileStore.sameTree_moveInto hstaging o.path o.overwrite
    rwa [FileStore.moveInto_of_target hstaging htarget] at hsame
  · rintro q bytes ⟨⟩
    exact .inr (by rw [hget, if_neg hne, if_pos rfl])
  · exact ⟨place, htree.symm.resolve hresolve, by rw [hget, if_pos rfl], hfree⟩
  · intro q hstaged _ hplace
    rw [hget, if_neg, if_neg]
    · rintro rfl
      exact hstaged _ rfl
    · rintro rfl
      exact hplace rfl (htree.symm.resolve hresolve)

/-- A step takes one call from a stage that is not its end to another, and changes the files accordingly. -/
theorem Turn.change (hnames : ∀ place, store.resolve p.text.toList = .ok place → ¬ fresh place)
    (h : Invariant fresh store p c) (hturn : Turn fresh i c d) :
    ∃ o w x t, c.calls[i]? = some (o, w) ∧ (∀ r, w ≠ .ended r) ∧ d = ⟨t, c.calls.set i (o, x)⟩ ∧
      Change fresh store p c o w x t := by
  have hstaged : ∀ {o staging}, c.calls[i]? = some (o, .filled staging) →
      c.store.get? staging = some (.file o.contents.toUTF8) ∧ fresh staging := fun hcall =>
    have hnow := h.staged i _ _ _ _ hcall rfl
    ⟨hnow.2.2, hnow.1⟩
  cases hturn with
  | @step o w t x hcall hstep =>
      refine ⟨o, w, x, t, hcall, fun r hr => ?_, rfl, ?_⟩
      · subst hr
        cases hstep
      cases hstep with
      | create hdir hfresh hfree =>
          exact .of_insert hfresh rfl (by simp [hfree]) (.inr ⟨rfl, hfree⟩)
      | createFails f =>
          exact ⟨.refl c.store, fun _ _ h => (nomatch h), fun _ _ h => (nomatch h), (nomatch ·),
            fun _ _ _ _ => rfl⟩
      | @fill _ staging =>
          obtain ⟨hfresh, -, hnow⟩ := h.staged i _ _ _ _ hcall rfl
          exact .of_insert hfresh rfl (by simp [hnow]) (.inl ⟨_, rfl⟩)
      | @fillFails _ staging f =>
          obtain ⟨-, -, hnow⟩ := h.staged i _ _ _ _ hcall rfl
          exact .of_erase rfl (by simp [hnow])
      | @move _ staging =>
          obtain ⟨hnow, hfresh⟩ := hstaged hcall
          cases htarget : c.store.target o.path o.overwrite with
          | ok place =>
              rw [FileStore.moveInto_of_target hnow htarget]
              refine .of_target h.tree (h.paths i o _ hcall) hnow htarget fun hsame => ?_
              subst hsame
              have hresolve := (FileStore.target_eq_ok_iff.mp htarget).1
              rw [h.paths i o _ hcall] at hresolve
              exact hnames _ (h.tree.symm.resolve hresolve) hfresh
          | error f =>
              obtain ⟨g, hg⟩ : ∃ g, o.verdict (.error f) = .error g := o.verdict_error f
              rw [FileStore.moveInto_of_target_error hnow htarget, hg]
              exact .of_erase rfl (by simp [hnow])
      | moveFails f =>
          obtain ⟨g, hg⟩ := o.verdict_error f
          rw [hg]
          exact .of_erase rfl (by simp [(hstaged hcall).1])

/-! ### A change keeps the invariant -/

/-- The calls after one of them got to another stage. -/
theorem getElem?_set_cases {calls : List (Output × Writing)} {j : Nat} {o' : Output} {w' : Writing}
    (hcall : calls[i]? = some (o, w)) (h : (calls.set i (o, x))[j]? = some (o', w')) :
    (j = i ∧ o' = o ∧ w' = x) ∨ (j ≠ i ∧ calls[j]? = some (o', w')) := by
  by_cases hij : i = j
  · subst hij
    rw [List.getElem?_set_self (List.getElem?_eq_some_iff.mp hcall).1] at h
    cases h
    exact .inl ⟨rfl, rfl, rfl⟩
  · rw [List.getElem?_set_ne hij] at h
    exact .inr ⟨Ne.symm hij, h⟩

/-- What was explained before a step is explained after it. -/
theorem Explained.change (hcall : c.calls[i]? = some (o, w)) (hold : ∀ r, w ≠ .ended r)
    (hchange : Change fresh store p c o w x t) {q : Place} (hkeep : ∀ bytes, o.staged? w ≠ some (q, bytes))
    (hget : t.get? q = c.store.get? q) (h : Explained store p c q) :
    Explained store p ⟨t, c.calls.set i (o, x)⟩ q := by
  cases h with
  | @staged j o' w' bytes hj hstaged =>
      have hji : i ≠ j := by
        rintro rfl
        cases hcall.symm.trans hj
        exact hkeep bytes hstaged
      exact .staged (i := j) (by rw [List.getElem?_set_ne hji, hj]) hstaged
  | @wrote j o' hj hresolve hnow =>
      have hji : i ≠ j := by
        rintro rfl
        cases hcall.symm.trans hj
        exact hold _ rfl
      exact .wrote (i := j) (by rw [List.getElem?_set_ne hji, hj]) hresolve (hget.trans hnow)
  | kept hnow => exact .kept (hget.trans hnow)

/-- A step of a call that does not succeed in it leaves the path alone. -/
theorem Change.get?_of_resolve
    (hnames : ∀ place, store.resolve p.text.toList = .ok place → ¬ fresh place)
    (hchange : Change fresh store p c o w x t) (h : Invariant fresh store p c)
    (hcall : c.calls[i]? = some (o, w)) (hx : x ≠ .ended (.ok ())) {place : Place}
    (hresolve : store.resolve p.text.toList = .ok place) : t.get? place = c.store.get? place := by
  have hfresh := hnames place hresolve
  refine hchange.frame place (fun bytes hw => ?_) (fun bytes hx' => ?_) fun hok => absurd hok hx
  · exact hfresh (h.staged i _ _ _ _ hcall hw).1
  · exact hfresh (hchange.staged place bytes hx').1

/-- A staging file of another call is neither the one that stood there for this call nor the one that does now. -/
theorem Change.apart (hchange : Change fresh store p c o w x t) (h : Invariant fresh store p c)
    (hcall : c.calls[i]? = some (o, w)) {j : Nat} {o' : Output} {w' : Writing} {q : Place} {bytes : ByteArray}
    (hji : j ≠ i) (hj : c.calls[j]? = some (o', w')) (hstaged : o'.staged? w' = some (q, bytes)) :
    (∀ bytes', o.staged? w ≠ some (q, bytes')) ∧ ∀ bytes', o.staged? x ≠ some (q, bytes') := by
  have hw : ∀ bytes', o.staged? w ≠ some (q, bytes') := fun bytes' hq =>
    hji (h.apart j i _ _ _ _ q _ _ hj hcall hstaged hq)
  refine ⟨hw, fun bytes' hq => ?_⟩
  rcases (hchange.staged q bytes' hq).2.2 with ⟨_, hq'⟩ | hfree
  · exact hw _ hq'
  · exact nomatch hfree.symm.trans (h.staged j _ _ _ _ hj hstaged).2.2

/-- The staging files of other calls stay as they are. -/
theorem Change.get?_of_staged (hnames : ∀ place, store.resolve p.text.toList = .ok place → ¬ fresh place)
    (hchange : Change fresh store p c o w x t) (h : Invariant fresh store p c)
    (hcall : c.calls[i]? = some (o, w)) {j : Nat} {o' : Output} {w' : Writing} {q : Place} {bytes : ByteArray}
    (hji : j ≠ i) (hj : c.calls[j]? = some (o', w')) (hstaged : o'.staged? w' = some (q, bytes)) :
    t.get? q = c.store.get? q := by
  obtain ⟨hw, hx⟩ := hchange.apart h hcall hji hj hstaged
  exact hchange.frame q hw hx fun _ hresolve => hnames q hresolve (h.staged j _ _ _ _ hj hstaged).1

/-- Every entry is explained after a step: it is what the call now stages, or what a removed staging file
    leaves, or what the call has moved to its path, or it was explained before. -/
theorem Change.explained (hchange : Change fresh store p c o w x t) (h : Invariant fresh store p c)
    (hcall : c.calls[i]? = some (o, w)) (hold : ∀ r, w ≠ .ended r) (q : Place) :
    Explained store p ⟨t, c.calls.set i (o, x)⟩ q := by
  have hself : (c.calls.set i (o, x))[i]? = some (o, x) :=
    List.getElem?_set_self (List.getElem?_eq_some_iff.mp hcall).1
  by_cases hx : ∃ bytes, o.staged? x = some (q, bytes)
  · obtain ⟨bytes, hx⟩ := hx
    exact .staged (i := i) hself hx
  by_cases hw : ∃ bytes, o.staged? w = some (q, bytes)
  · obtain ⟨bytes, hw⟩ := hw
    have hbefore := (h.staged i _ _ _ _ hcall hw).2.1
    rcases hchange.left q bytes hw with hx' | hgone
    · exact absurd hx' hx
    · exact .kept (hgone.trans hbefore.symm)
  by_cases hlanded : x = .ended (.ok ()) ∧ store.resolve p.text.toList = .ok q
  · obtain ⟨rfl, hresolve⟩ := hlanded
    obtain ⟨place, hplace, hnow, -⟩ := hchange.landed rfl
    cases hresolve.symm.trans hplace
    exact .wrote (i := i) hself hresolve hnow
  · refine (h.explained q).change hcall hold hchange (not_exists.mp hw) ?_
    exact hchange.frame q (not_exists.mp hw) (not_exists.mp hx) (not_and.mp hlanded)

/-- Where some call has returned well something stands at the path, also after a step. -/
theorem Change.taken (hnames : ∀ place, store.resolve p.text.toList = .ok place → ¬ fresh place)
    (hchange : Change fresh store p c o w x t) (h : Invariant fresh store p c)
    (hcall : c.calls[i]? = some (o, w)) {j : Nat}
    (hj : Returned ⟨t, c.calls.set i (o, x)⟩ j (.ok ())) :
    ∃ place, store.resolve p.text.toList = .ok place ∧ (t.get? place).isSome = true := by
  obtain ⟨o', hj⟩ := hj
  by_cases hx : x = .ended (.ok ())
  · obtain ⟨place, hresolve, hnow, -⟩ := hchange.landed hx
    exact ⟨place, hresolve, by rw [hnow]; rfl⟩
  rcases getElem?_set_cases hcall hj with ⟨-, -, hx'⟩ | ⟨-, hj⟩
  · exact absurd hx'.symm hx
  · obtain ⟨place, hresolve, hthere⟩ := h.taken j ⟨o', hj⟩
    refine ⟨place, hresolve, ?_⟩
    rw [hchange.get?_of_resolve hnames h hcall hx hresolve]
    exact hthere

/-- A change keeps the invariant. -/
theorem Invariant.change (hnames : ∀ place, store.resolve p.text.toList = .ok place → ¬ fresh place)
    (h : Invariant fresh store p c) (hcall : c.calls[i]? = some (o, w)) (hold : ∀ r, w ≠ .ended r)
    (hchange : Change fresh store p c o w x t) :
    Invariant fresh store p ⟨t, c.calls.set i (o, x)⟩ := by
  refine ⟨h.tree.trans hchange.tree, fun j o' w' hj => ?_, fun j o' w' q bytes hj hstaged => ?_,
    fun j k o' w' o'' w'' q bytes bytes' hj hk hstaged hstaged' => ?_,
    hchange.explained h hcall hold, fun j hj => hchange.taken hnames h hcall hj⟩
  · rcases getElem?_set_cases hcall hj with ⟨-, rfl, -⟩ | ⟨-, hj⟩
    · exact h.paths i _ _ hcall
    · exact h.paths j _ _ hj
  · rcases getElem?_set_cases hcall hj with ⟨-, rfl, rfl⟩ | ⟨hji, hj⟩
    · obtain ⟨hfresh, hnow, hbefore⟩ := hchange.staged q bytes hstaged
      refine ⟨hfresh, ?_, hnow⟩
      rcases hbefore with ⟨_, hw⟩ | hfree
      · exact (h.staged i _ _ _ _ hcall hw).2.1
      · exact h.get?_eq_none hfree
    · obtain ⟨hfresh, hbefore, hnow⟩ := h.staged j _ _ _ _ hj hstaged
      exact ⟨hfresh, hbefore, (hchange.get?_of_staged hnames h hcall hji hj hstaged).trans hnow⟩
  · rcases getElem?_set_cases hcall hj with ⟨rfl, rfl, rfl⟩ | ⟨hji, hj'⟩ <;>
      rcases getElem?_set_cases hcall hk with ⟨hki, ho, hw⟩ | ⟨hki, hk'⟩
    · exact hki.symm
    · exact absurd hstaged ((hchange.apart h hcall hki hk' hstaged').2 bytes)
    · subst ho hw
      exact absurd hstaged' ((hchange.apart h hcall hji hj' hstaged).2 bytes')
    · exact h.apart j k _ _ _ _ q _ _ hj' hk' hstaged hstaged'

/-- A step keeps the invariant. -/
theorem Turn.invariant (hnames : ∀ place, store.resolve p.text.toList = .ok place → ¬ fresh place)
    (hturn : Turn fresh i c d) (h : Invariant fresh store p c) : Invariant fresh store p d := by
  obtain ⟨o, w, x, t, hcall, hold, rfl, hchange⟩ := hturn.change hnames h
  exact h.change hnames hcall hold hchange

/-- Any number of steps keep the invariant. -/
theorem Turns.invariant (hnames : ∀ place, store.resolve p.text.toList = .ok place → ¬ fresh place)
    (hturns : Turns fresh c d) (h : Invariant fresh store p c) : Invariant fresh store p d := by
  induction hturns with
  | refl => exact h
  | tail _ hturn ih => exact hturn.invariant hnames ih

/-! ## What follows -/

/-- The path holds what it held before, or all that some call had to write that has returned well. -/
theorem Invariant.entryAt? (hnames : ∀ place, store.resolve p.text.toList = .ok place → ¬ fresh place)
    (h : Invariant fresh store p c) :
    c.store.entryAt? p = store.entryAt? p ∨
      ∃ (i : Nat) (o : Output), c.calls[i]? = some (o, .ended (.ok ())) ∧
        c.store.entryAt? p = some (.file o.contents.toUTF8) := by
  cases hresolve : store.resolve p.text.toList with
  | error f => exact .inl (h.tree.entryAt?_eq fun place hplace => nomatch hresolve.symm.trans hplace)
  | ok place =>
      rw [FileStore.entryAt?_of_resolve hresolve, FileStore.entryAt?_of_resolve (h.tree.resolve hresolve)]
      cases h.explained place with
      | staged hcall hstaged => exact absurd (h.staged _ _ _ _ _ hcall hstaged).1 (hnames place hresolve)
      | wrote hcall _ hget => exact .inr ⟨_, _, hcall, hget⟩
      | kept hget => exact .inl hget

/-- A step after which the path holds something else is one in which a call returns well. -/
theorem Turn.returned_of_entryAt?_ne
    (hnames : ∀ place, store.resolve p.text.toList = .ok place → ¬ fresh place)
    (h : Invariant fresh store p c) (hturn : Turn fresh i c d)
    (hne : d.store.entryAt? p ≠ c.store.entryAt? p) : d.Returned i (.ok ()) := by
  obtain ⟨o, w, x, t, hcall, hold, rfl, hchange⟩ := hturn.change hnames h
  by_cases hx : x = .ended (.ok ())
  · subst hx
    exact ⟨o, List.getElem?_set_self (List.getElem?_eq_some_iff.mp hcall).1⟩
  · refine absurd (hchange.tree.entryAt?_eq fun place hplace => ?_) hne
    exact hchange.get?_of_resolve hnames h hcall hx (h.tree.symm.resolve hplace)

/-- When all calls have come to their end, every place but that of the path is as it was. -/
theorem Invariant.get?_eq_of_ended (h : Invariant fresh store p c)
    (hended : ∀ call ∈ c.calls, ∃ r, call.2 = .ended r) {q : Place}
    (hq : store.resolve p.text.toList ≠ .ok q) : c.store.get? q = store.get? q := by
  cases h.explained q with
  | staged hcall hstaged =>
      obtain ⟨r, rfl⟩ := hended _ (List.mem_of_getElem? hcall)
      exact nomatch hstaged
  | wrote _ hresolve _ => exact absurd hresolve hq
  | kept hget => exact hget

/-- Where something stands, a move that may not replace it comes to nothing. -/
theorem Moves.returned_of_exists (h : Invariant fresh store p c) (hmoves : Moves i c d)
    (hoverwrite : ∀ call ∈ c.calls, call.1.overwrite = false)
    (hthere : (c.store.entryAt? p).isSome = true) : d.Returned i (.error (.outputExists p)) := by
  obtain ⟨o, staging, hcall, rfl⟩ := hmoves
  obtain ⟨place, hresolve, hsome⟩ := FileStore.exists_resolve_of_entryAt? hthere
  have hpath := h.paths i o _ hcall
  have hoff : o.overwrite = false := hoverwrite _ (List.mem_of_getElem? hcall)
  have hnow := (h.staged i _ _ _ _ hcall rfl).2.2
  have htarget : c.store.target o.path o.overwrite = .error .exists := by
    rw [hoff, hpath]
    exact FileStore.target_of_exists hresolve hsome
  refine ⟨o, ?_⟩
  rw [FileStore.moveInto_of_target_error hnow htarget]
  refine (List.getElem?_set_self (List.getElem?_eq_some_iff.mp hcall).1).trans ?_
  simp [Output.verdict, hoff, hpath]

/-- What holds of all outputs that are being written goes on to do so. -/
theorem Turns.forall_output {P : Output → Prop} (h : ∀ call ∈ c.calls, P call.1)
    (hturns : Turns fresh c d) : ∀ call ∈ d.calls, P call.1 := by
  induction hturns with
  | refl => exact h
  | tail _ hturn ih =>
      intro call hmem
      cases hturn with
      | step hcall _ =>
          rcases List.mem_or_eq_of_mem_set hmem with hmem | rfl
          · exact ih call hmem
          · exact (ih _ (List.mem_of_getElem? hcall) :)

/-- Where a call has returned well something stands. -/
theorem Invariant.isSome_entryAt? (h : Invariant fresh store p c) (hi : c.Returned i (.ok ())) :
    (c.store.entryAt? p).isSome = true := by
  obtain ⟨place, hresolve, hthere⟩ := h.taken i hi
  rwa [FileStore.entryAt?_of_resolve (h.tree.resolve hresolve)]

/-- Without leave to replace anything, a call returns well in a step only if nothing stood at the path. -/
theorem Turn.returned_cases (hnames : ∀ place, store.resolve p.text.toList = .ok place → ¬ fresh place)
    (h : Invariant fresh store p c) (hoff : ∀ call ∈ c.calls, call.1.overwrite = false)
    (hturn : Turn fresh i c d) {j : Nat} (hj : d.Returned j (.ok ())) :
    c.Returned j (.ok ()) ∨ (j = i ∧ c.store.entryAt? p = none) := by
  obtain ⟨o, w, x, t, hcall, -, rfl, hchange⟩ := hturn.change hnames h
  obtain ⟨o', hj⟩ := hj
  rcases getElem?_set_cases hcall hj with ⟨hji, -, hx⟩ | ⟨-, hj⟩
  · obtain ⟨place, hresolve, -, hfree⟩ := hchange.landed hx.symm
    rw [FileStore.entryAt?_of_resolve (h.tree.resolve hresolve)]
    exact .inr ⟨hji, hfree (hoff _ (List.mem_of_getElem? hcall))⟩
  · exact .inl ⟨o', hj⟩

end Invariant

/-! ## Calls on one path -/

section Calls

variable {fresh : Place → Prop} {store : FileStore} {outputs : List Output} {p : Path} {c : Writers}

theorem not_returned_start (store : FileStore) (outputs : List Output) (i : Nat)
    (r : Except Fault Unit) : ¬ (start store outputs).Returned i r := by
  rintro ⟨o, h⟩
  obtain ⟨o', -, heq⟩ := List.mem_map.mp (List.mem_of_getElem? h)
  cases heq

section Kept

variable (hnames : ∀ place, store.resolve p.text.toList = .ok place → ¬ fresh place)
  (hpath : ∀ o ∈ outputs, o.path = p) (hoff : ∀ o ∈ outputs, o.overwrite = false)

include hoff in
theorem overwrite_eq_false (h : Turns fresh (start store outputs) c) :
    ∀ call ∈ c.calls, call.1.overwrite = false := by
  refine h.forall_output (P := fun o => o.overwrite = false) fun call hcall => ?_
  obtain ⟨o, ho, rfl⟩ := List.mem_map.mp hcall
  exact hoff o ho

include hnames hpath hoff

/-- Without leave to replace anything, one call at most returns well. -/
theorem Turns.returned_unique (h : Turns fresh (start store outputs) c) :
    ∀ i j, c.Returned i (.ok ()) → c.Returned j (.ok ()) → i = j := by
  generalize hstart : start store outputs = s at h
  induction h with
  | refl =>
      intro i _ hi
      exact absurd (hstart ▸ hi) (not_returned_start store outputs i _)
  | @tail d e k hturns hturn ih =>
      subst hstart
      have hd := hturns.invariant hnames (invariant_start fresh store hpath)
      have hcases := fun {j} => hturn.returned_cases hnames hd (overwrite_eq_false hoff hturns) (j := j)
      -- where one call has returned well before, no other does now
      have hnot : ∀ {l}, d.Returned l (.ok ()) → d.store.entryAt? p ≠ none := by
        intro l hl hnone
        have hsome := hd.isSome_entryAt? hl
        rw [hnone] at hsome
        exact nomatch hsome
      intro i j hi hj
      rcases hcases hi with hi | ⟨rfl, hfree⟩ <;> rcases hcases hj with hj | ⟨rfl, hfree'⟩
      · exact ih i j hi hj
      · exact absurd hfree' (hnot hi)
      · exact absurd hfree (hnot hj)
      · rfl

/-- Without leave to replace anything, no call returns well where something stood before. -/
theorem Turns.not_returned (hthere : (store.entryAt? p).isSome = true)
    (h : Turns fresh (start store outputs) c) : ∀ i, ¬ c.Returned i (.ok ()) := by
  generalize hstart : start store outputs = s at h
  induction h with
  | refl => exact fun i hi => not_returned_start store outputs i _ (hstart ▸ hi)
  | @tail d e k hturns hturn ih =>
      subst hstart
      have hd := hturns.invariant hnames (invariant_start fresh store hpath)
      intro i hi
      rcases hturn.returned_cases hnames hd (overwrite_eq_false hoff hturns) hi with hi | ⟨-, hfree⟩
      · exact ih i hi
      · rcases hd.entryAt? hnames with hkept | ⟨j, o, hj, -⟩
        · rw [← hkept, hfree] at hthere
          exact nomatch hthere
        · exact ih j ⟨o, hj⟩

end Kept

/-- **Writing is atomic.** Any number of calls write to the path `p`, in any order of their steps, and any
    step may fail; no staging file has the name of the path itself. At every moment the path holds what it
    held before, or the complete contents of one call, which has returned well. No step of a call that returns
    an error changes the path. When all calls have come to their end, every place but that of the path is as
    it was, those of staging files included.

    If no call may replace anything: where something stood before, the path is never altered, and every move
    that is carried out ends in `outputExists`. Where nothing stood, one call at most returns well, and every
    move that is carried out after that of this call ends in `outputExists`. -/
theorem writes_are_atomic (hpath : ∀ o ∈ outputs, o.path = p)
    (hnames : ∀ place, store.resolve p.text.toList = .ok place → ¬ fresh place) :
    (∀ c, Turns fresh (start store outputs) c →
      (c.store.entryAt? p = store.entryAt? p ∨
        ∃ (i : Nat) (o : Output), c.calls[i]? = some (o, .ended (.ok ())) ∧
          c.store.entryAt? p = some (.file o.contents.toUTF8)) ∧
      (∀ i f, c.Returned i (.error f) → ∀ d e, Turns fresh (start store outputs) d →
        Turn fresh i d e → Turns fresh e c → e.store.entryAt? p = d.store.entryAt? p) ∧
      ((∀ call ∈ c.calls, ∃ r, call.2 = .ended r) →
        ∀ q, store.resolve p.text.toList ≠ .ok q → c.store.get? q = store.get? q)) ∧
    ((∀ o ∈ outputs, o.overwrite = false) →
      ((store.entryAt? p).isSome = true → ∀ c, Turns fresh (start store outputs) c →
        c.store.entryAt? p = store.entryAt? p ∧
        ∀ i d, Moves i c d → d.Returned i (.error (.outputExists p))) ∧
      (store.entryAt? p = none → ∀ c, Turns fresh (start store outputs) c →
        (∀ i j, c.Returned i (.ok ()) → c.Returned j (.ok ()) → i = j) ∧
        ∀ i, c.Returned i (.ok ()) → ∀ j d, Moves j c d →
          d.Returned j (.error (.outputExists p)))) := by
  have hinvariant : ∀ {c}, Turns fresh (start store outputs) c → Invariant fresh store p c :=
    fun h => h.invariant hnames (invariant_start fresh store hpath)
  refine ⟨fun c h => ⟨(hinvariant h).entryAt? hnames, ?_, fun hended q hq =>
    (hinvariant h).get?_eq_of_ended hended hq⟩, fun hoff => ?_⟩
  · intro i f hi d e hd hturn hrest
    apply Classical.byContradiction
    intro hne
    have hok := (hturn.returned_of_entryAt?_ne hnames (hinvariant hd) hne).turns hrest
    exact nomatch hok.unique hi
  refine ⟨fun hthere c h => ?_, fun _ c h => ⟨h.returned_unique hnames hpath hoff, ?_⟩⟩
  · have hkept : c.store.entryAt? p = store.entryAt? p := by
      rcases (hinvariant h).entryAt? hnames with hkept | ⟨i, o, hi, -⟩
      · exact hkept
      · exact absurd ⟨o, hi⟩ (h.not_returned hnames hpath hoff hthere i)
    refine ⟨hkept, fun i d hmoves => ?_⟩
    exact hmoves.returned_of_exists (hinvariant h) (overwrite_eq_false hoff h) (hkept ▸ hthere)
  · intro i hi j d hmoves
    exact hmoves.returned_of_exists (hinvariant h) (overwrite_eq_false hoff h)
      ((hinvariant h).isSome_entryAt? hi)

end Calls

/-! ### Two calls on a free path -/

/-- Two outputs for one path, neither of which may replace anything. -/
def rivalOutputs : List Output := [⟨⟨"a.yaml"⟩, "x\n", false⟩, ⟨⟨"a.yaml"⟩, "y\n", false⟩]

/-- Both calls stage their outputs, the second one moves first and returns well, and the other one, moving
    after it, returns `outputExists`. -/
theorem writes_are_atomic_rivals :
    (∀ o ∈ rivalOutputs, o.path = ⟨"a.yaml"⟩ ∧ o.overwrite = false) ∧
    (∀ place, FileStore.resolve ⟨["w"], [(["w"], .directory)]⟩ "a.yaml".toList = .ok place →
      ¬ place ≠ ["w", "a.yaml"]) ∧
    ∃ c d, Turns (· ≠ ["w", "a.yaml"]) (start ⟨["w"], [(["w"], .directory)]⟩ rivalOutputs) c ∧
      c.Returned 1 (.ok ()) ∧ Moves 0 c d ∧ d.Returned 0 (.error (.outputExists ⟨"a.yaml"⟩)) := by
  have hpath : ∀ o ∈ rivalOutputs, o.path = ⟨"a.yaml"⟩ ∧ o.overwrite = false := by
    simp [rivalOutputs]
  have hnames : ∀ place,
      FileStore.resolve ⟨["w"], [(["w"], .directory)]⟩ "a.yaml".toList = .ok place →
        ¬ place ≠ ["w", "a.yaml"] :=
    fun place hplace hne => hne (Except.ok.inj hplace).symm
  have hrun := @Turns.refl (· ≠ ["w", "a.yaml"]) (start ⟨["w"], [(["w"], .directory)]⟩ rivalOutputs)
    |>.tail (.step (i := 0) rfl (@Output.Step.create _ _ _ ["w"] "0.partial" rfl (by decide) rfl))
    |>.tail (.step (i := 1) rfl (@Output.Step.create _ _ _ ["w"] "1.partial" rfl (by decide) rfl))
    |>.tail (.step (i := 0) rfl .fill)
    |>.tail (.step (i := 1) rfl .fill)
    |>.tail (Moves.turn (i := 1) ⟨_, _, rfl, rfl⟩)
  refine ⟨hpath, hnames, _, _, hrun, ⟨_, rfl⟩, ⟨_, _, rfl, rfl⟩, ?_⟩
  exact (((writes_are_atomic (fun o ho => (hpath o ho).1) hnames).2 fun o ho => (hpath o ho).2).2
    rfl _ hrun).2 1 ⟨_, rfl⟩ 0 _ ⟨_, _, rfl, rfl⟩

end Writers

end FacetQuery

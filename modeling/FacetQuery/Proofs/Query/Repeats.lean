import FacetQuery.Query

/-!
# `FacetQuery.Proofs.Query.Repeats` — which values a facet repeats, and in which order they are listed

A value is listed at the place where it is met for the second time, so the list of repeated values is in the
order of these places, and not in the order in which the values are first seen: of `A, B, B, A` it is `B, A`.
The two orders agree exactly if no value that is first seen later is repeated earlier
(`duplicates_listed`).

The places are counted in the whole list of values. While it is walked, the values already passed stand in
reverse, so the whole list is always these turned round with the rest behind them; that keeps every place
where it is from one step to the next.

## Contents
- `MetAt` and `MetBefore`: a value at a place with so many equal ones in front, and the order that this gives.
- `exists_metAt_of_mem`, `pairwise_secondOccurrences`: where the listed values are met.
- `duplicates_listed`, and a facet whose repeats interleave.
-/

namespace FacetQuery

namespace Facet

/-! ## Places of values -/

/-- A value stands at a place, and so many times in front of it. -/
def MetAt (times : Nat) (vs : List String) (place : Nat) (v : String) : Prop :=
  vs[place]? = some v ∧ (vs.take place).count v = times

instance {times : Nat} {vs : List String} {place : Nat} {v : String} :
    Decidable (MetAt times vs place v) := inferInstanceAs (Decidable (_ ∧ _))

/-- After as many times as given, the one value is met again before the other is. -/
def MetBefore (times : Nat) (vs : List String) (v w : String) : Prop :=
  ∃ i j, MetAt times vs i v ∧ MetAt times vs j w ∧ i < j

section Places

variable {times : Nat} {vs : List String} {v w : String}

/-- In front of a later place a value is counted at the earlier one as well. -/
theorem MetAt.lt_count {i j : Nat} (h : MetAt times vs i v) (hij : i < j) :
    times < (vs.take j).count v := by
  have hmore : (vs.take (i + 1)).count v = times + 1 := by
    rw [List.take_add_one, h.1, List.count_append, h.2]
    simp
  have hprefix : (vs.take (i + 1)).Sublist (vs.take j) :=
    (List.take_prefix_take_left hij).sublist
  have hle := hprefix.count_le v
  omega

theorem MetAt.unique {i j : Nat} (hi : MetAt times vs i v) (hj : MetAt times vs j v) : i = j := by
  rcases Nat.lt_trichotomy i j with h | h | h
  · exact absurd hj.2 (Nat.ne_of_gt (hi.lt_count h))
  · exact h
  · exact absurd hi.2 (Nat.ne_of_gt (hj.lt_count h))

/-- What has been met so often stands in the list once more than that. -/
theorem MetAt.lt_count_all {i : Nat} (h : MetAt times vs i v) : times < vs.count v := by
  have hlt := h.lt_count (Nat.lt_add_one i)
  have hle := (List.take_sublist (i + 1) vs).count_le v
  omega

theorem MetBefore.asymm (h : MetBefore times vs v w) : ¬ MetBefore times vs w v := by
  rintro ⟨k, l, hk, hl, hkl⟩
  obtain ⟨i, j, hi, hj, hij⟩ := h
  have hil : i = l := hi.unique hl
  have hjk : j = k := hj.unique hk
  omega

end Places

/-! ## Second occurrences -/

/-- A listed value is met for the second time behind what was passed. -/
theorem exists_metAt_of_mem {earlier vs : List String} {v : String}
    (h : v ∈ secondOccurrences earlier vs) :
    ∃ place, earlier.length ≤ place ∧ MetAt 1 (earlier.reverse ++ vs) place v := by
  induction vs generalizing earlier with
  | nil => exact absurd h List.not_mem_nil
  | cons w ws ih =>
      have hbehind (hmem : v ∈ secondOccurrences (w :: earlier) ws) :
          ∃ place, earlier.length ≤ place ∧ MetAt 1 (earlier.reverse ++ w :: ws) place v := by
        obtain ⟨place, hle, hmet⟩ := ih hmem
        rw [List.length_cons] at hle
        rw [List.reverse_cons, List.append_assoc, List.singleton_append] at hmet
        exact ⟨place, by omega, hmet⟩
      unfold secondOccurrences at h
      split at h
      · next hcount =>
          rcases List.mem_cons.mp h with rfl | hmem
          · refine ⟨earlier.length, Nat.le_refl _, ?_, ?_⟩
            · simp
            · simpa [List.take_append] using hcount
          · exact hbehind hmem
      · exact hbehind h

/-- The values are listed in the order in which they are met for the second time. -/
theorem pairwise_secondOccurrences (earlier vs : List String) :
    (secondOccurrences earlier vs).Pairwise (MetBefore 1 (earlier.reverse ++ vs)) := by
  induction vs generalizing earlier with
  | nil => exact List.Pairwise.nil
  | cons w ws ih =>
      have hrest := ih (w :: earlier)
      have hwhole : (w :: earlier).reverse ++ ws = earlier.reverse ++ w :: ws := by simp
      rw [hwhole] at hrest
      unfold secondOccurrences
      split
      · next hcount =>
          refine List.Pairwise.cons (fun v hv => ?_) hrest
          -- `w` is met where the rest begins, every other one behind that
          obtain ⟨place, hle, hmet⟩ := exists_metAt_of_mem hv
          rw [hwhole] at hmet
          rw [List.length_cons] at hle
          refine ⟨earlier.length, place, ⟨by simp, ?_⟩, hmet, hle⟩
          simpa [List.take_append] using hcount
      · exact hrest

/-! ## Repeated values -/

theorem mem_duplicates {f : Facet} {v : String} : v ∈ f.duplicates ↔ 2 ≤ f.values.count v := by
  rw [duplicates, mem_secondOccurrences]
  simp

theorem pairwise_duplicates (f : Facet) : f.duplicates.Pairwise (MetBefore 1 f.values) :=
  pairwise_secondOccurrences [] f.values

/-- **The repeated values of a facet.** A value is listed if and only if it occurs at least twice, each such
    value once, and in the order in which they are met for the second time. This is the order in which they
    are first seen if and only if every value that is repeated before another one is also seen before it. -/
theorem duplicates_listed (f : Facet) :
    (∀ v, v ∈ f.duplicates ↔ 2 ≤ f.values.count v) ∧
      f.duplicates.Nodup ∧
      f.duplicates.Pairwise (MetBefore 1 f.values) ∧
      (f.duplicates.Pairwise (MetBefore 0 f.values) ↔
        ∀ v w, MetBefore 1 f.values v w → MetBefore 0 f.values v w) := by
  have hsecond := pairwise_duplicates f
  refine ⟨fun v => mem_duplicates, ?_, hsecond, ?_, ?_⟩
  · refine hsecond.imp fun {v w} h heq => ?_
    subst heq
    exact h.asymm h
  · intro hfirst v w hvw
    obtain ⟨i, j, hi, hj, -⟩ := id hvw
    obtain ⟨m, hm, rfl⟩ := List.getElem_of_mem (mem_duplicates.mpr hi.lt_count_all)
    obtain ⟨n, hn, rfl⟩ := List.getElem_of_mem (mem_duplicates.mpr hj.lt_count_all)
    -- the two stand in the list in the order of their second occurrences
    rcases Nat.lt_trichotomy m n with h | rfl | h
    · exact List.pairwise_iff_getElem.mp hfirst m n hm hn h
    · exact absurd hvw hvw.asymm
    · exact absurd hvw (List.pairwise_iff_getElem.mp hsecond n m hn hm h).asymm
  · intro h
    exact hsecond.imp fun {v w} hvw => h v w hvw

/-- A facet with two repeated values, of which the one that is seen first is repeated last. -/
def interleaved : Facet := ⟨"model", ["A", "B", "B", "A"]⟩

/-- The repeated values of a facet need not be listed in the order in which they are first seen. -/
theorem duplicates_not_firstSeen : interleaved.duplicates = ["B", "A"] ∧
    ¬ interleaved.duplicates.Pairwise (MetBefore 0 interleaved.values) := by
  have hlisted : interleaved.duplicates = ["B", "A"] := by decide
  refine ⟨hlisted, fun h => ?_⟩
  rw [hlisted] at h
  obtain ⟨i, j, hi, hj, hij⟩ := List.rel_of_pairwise_cons h (List.mem_singleton.mpr rfl)
  have hB : MetAt 0 interleaved.values 1 "B" := by decide
  have hA : MetAt 0 interleaved.values 0 "A" := by decide
  rw [hi.unique hB, hj.unique hA] at hij
  exact absurd hij (by decide)

end Facet

end FacetQuery

import FacetQuery.FileStore.Staging
import FacetQuery.Proofs.Path.Extension

/-!
# `FacetQuery.Proofs.FileStore.Tree` — what the directories alone decide

Conversions make, fill, move and remove files; they never touch a directory. Whether a path can be followed,
and where it leads, depends on the directories only: a place that is entered must hold one, and what else
stands somewhere shows in the kind of a fault at most. So the place that a path names, the directory that
its staging file is made in, and the place that it can be moved to are the same throughout a batch
(`SameTree`), except that a move also looks at what stands at its goal.

## Contents
- `SameTree`, and the changes that keep it.
- `resolve_eq_ok_iff` and `target_eq_ok_iff`, the two ways of following a path as one fold.
- What `SameTree` carries over.
-/

namespace FacetQuery

namespace FileStore

/-! ## Stores with the same directories -/

/-- Two stores with the same current directory and the same directories; their files may differ. -/
structure SameTree (s t : FileStore) : Prop where
  current : s.current = t.current
  directories : ∀ q, s.get? q = some .directory ↔ t.get? q = some .directory

theorem SameTree.refl (s : FileStore) : SameTree s s := ⟨rfl, fun _ => Iff.rfl⟩

theorem SameTree.symm {s t : FileStore} (h : SameTree s t) : SameTree t s :=
  ⟨h.current.symm, fun q => (h.directories q).symm⟩

theorem SameTree.trans {s t u : FileStore} (h : SameTree s t) (h' : SameTree t u) : SameTree s u :=
  ⟨h.current.trans h'.current, fun q => (h.directories q).trans (h'.directories q)⟩

/-- Where no directory stands, a file may come, change and go. -/
theorem SameTree.of_get? {s t : FileStore} (hcurrent : s.current = t.current)
    (h : ∀ q, t.get? q = s.get? q ∨ (s.get? q ≠ some .directory ∧ t.get? q ≠ some .directory)) :
    SameTree s t := by
  refine ⟨hcurrent, fun q => ?_⟩
  rcases h q with heq | ⟨hs, ht⟩
  · rw [heq]
  · exact ⟨fun hd => absurd hd hs, fun hd => absurd hd ht⟩

theorem ne_nil_of_get?_ne {s : FileStore} {q : Place} (h : s.get? q ≠ some .directory) : q ≠ [] := by
  rintro rfl
  exact h rfl

theorem sameTree_insert {s : FileStore} {place : Place} (bytes : ByteArray)
    (h : s.get? place ≠ some .directory) : SameTree s (s.insert place (.file bytes)) := by
  refine .of_get? rfl fun q => ?_
  rw [get?_insert _ _ _ _ (ne_nil_of_get?_ne h)]
  by_cases hq : q = place
  · subst hq
    exact .inr ⟨h, by simp⟩
  · exact .inl (by simp [hq])

theorem sameTree_erase {s : FileStore} {place : Place} (h : s.get? place ≠ some .directory) :
    SameTree s (s.erase place) := by
  refine .of_get? rfl fun q => ?_
  rw [get?_erase _ _ _ (ne_nil_of_get?_ne h)]
  by_cases hq : q = place
  · subst hq
    exact .inr ⟨h, by simp⟩
  · exact .inl (by simp [hq])

section Moved

variable {s : FileStore} {staging : Place} {bytes : ByteArray} {p : Path} {overwrite : Bool}

/-- A staging file that has a goal is moved there. -/
theorem moveInto_of_target {place : Place} (h : s.get? staging = some (.file bytes))
    (htarget : s.target p overwrite = .ok place) :
    s.moveInto staging p overwrite = (.ok (), (s.erase staging).insert place (.file bytes)) := by
  unfold moveInto
  rw [h, htarget]

/-- A staging file that has none is given up. -/
theorem moveInto_of_target_error {f : FileFault} (h : s.get? staging = some (.file bytes))
    (htarget : s.target p overwrite = .error f) :
    s.moveInto staging p overwrite = (.error f, s.erase staging) := by
  unfold moveInto
  rw [h, htarget]

theorem sameTree_moveInto (h : s.get? staging = some (.file bytes)) (p : Path) (overwrite : Bool) :
    SameTree s (s.moveInto staging p overwrite).2 := by
  have hstaging : s.get? staging ≠ some .directory := by simp [h]
  cases ht : s.target p overwrite with
  | error f =>
      rw [moveInto_of_target_error h ht]
      exact sameTree_erase hstaging
  | ok place =>
      have hplace := (get?_of_target ht).1
      rw [moveInto_of_target h ht]
      refine (sameTree_erase hstaging).trans (sameTree_insert bytes ?_)
      rw [get?_erase _ _ _ (ne_nil_of_get?_ne hstaging)]
      split
      · exact fun hd => nomatch hd
      · exact hplace

end Moved

/-! ## Following a path -/

/-- The place that a text is followed from. -/
def origin (s : FileStore) (text : List Char) : Place :=
  if text.head? = some '/' then [] else s.current

theorem enter_eq_ok_iff {s : FileStore} {dir place : Place} {segment : List Char} :
    s.enter dir segment = .ok place ↔
      s.get? dir = some .directory ∧ byteCount segment ≤ nameLimit ∧ reached dir segment = place := by
  unfold enter
  split
  · next h => simp [h]
  · next h => simp [h]
  · next h =>
      simp only [h, true_and]
      split
      · next hlong => simp [Nat.not_le_of_lt hlong]
      · next hshort => simp [Nat.le_of_not_lt hshort]

/-- A text resolves to a place iff it is not empty, can be passed to the system, and its segments lead
    there one by one. -/
theorem resolve_eq_ok_iff {s : FileStore} {text : List Char} {place : Place} :
    s.resolve text = .ok place ↔
      text.contains '\x00' = false ∧ byteCount text ≤ pathLimit ∧ text ≠ [] ∧
        (Path.segmentsOf text).foldlM s.enter (s.origin text) = .ok place := by
  unfold resolve
  by_cases hnul : text.contains '\x00' = true
  · rw [if_pos hnul, hnul]
    exact ⟨(nomatch ·), fun h => nomatch h.1⟩
  rw [if_neg hnul]
  simp only [Bool.not_eq_true] at hnul
  by_cases hlong : pathLimit < byteCount text
  · rw [if_pos hlong]
    exact ⟨(nomatch ·), fun h => absurd h.2.1 (Nat.not_le_of_lt hlong)⟩
  rw [if_neg hlong]
  have hshort := Nat.le_of_not_lt hlong
  simp only [hnul, hshort, true_and]
  cases text with
  | nil => exact ⟨(nomatch ·), fun h => absurd rfl h.1⟩
  | cons c cs =>
      simp only [ne_eq, reduceCtorEq, not_false_eq_true, true_and]
      obtain ⟨s₀, ss, hss⟩ := List.exists_cons_of_ne_nil (Path.segmentsOf_ne_nil cs)
      by_cases hc : c = '/'
      · subst hc
        -- the segment in front of the first slash is empty, and leads from the root to the root
        have horigin : s.origin ('/' :: cs) = [] := by simp [origin]
        have hroot : s.enter [] [] = .ok [] := enter_eq_ok_iff.mpr ⟨rfl, by decide, rfl⟩
        rw [horigin, Path.segmentsOf_cons_slash, hss, List.foldlM_cons, hroot]
        exact Iff.rfl
      · have horigin : s.origin (c :: cs) = s.current := by simp [origin, hc]
        rw [horigin, Path.segmentsOf_cons_of_ne hc hss]

/-- The last segment of a path is followed from a directory. -/
theorem exists_directory_of_resolve {s : FileStore} {p : Path} {place : Place}
    (h : s.resolve p.text.toList = .ok place) :
    ∃ dir, s.get? dir = some .directory ∧ reached dir p.lastSegment = place := by
  obtain ⟨-, -, -, hfold⟩ := resolve_eq_ok_iff.mp h
  rw [Path.segmentsOf_text, List.foldlM_append] at hfold
  cases hdir : p.leadingSegments.foldlM s.enter (s.origin p.text.toList) with
  | error f => rw [hdir] at hfold; exact nomatch hfold
  | ok dir =>
      rw [hdir] at hfold
      have hlast : s.enter dir p.lastSegment = .ok place := by
        rw [← hfold]
        show _ = (s.enter dir p.lastSegment >>= pure)
        rw [bind_pure]
      obtain ⟨hd, -, hr⟩ := enter_eq_ok_iff.mp hlast
      exact ⟨dir, hd, hr⟩

/-- A path that leads elsewhere than to a directory ends in a name, and the place ends in that name; or it
    ends in `..`. -/
theorem lastSegment_of_resolve {s : FileStore} {p : Path} {place : Place}
    (h : s.resolve p.text.toList = .ok place) (hplace : s.get? place ≠ some .directory) :
    (Path.IsName p.lastSegment ∧ place.getLast? = some (String.ofList p.lastSegment)) ∨
      p.lastSegment = ['.', '.'] := by
  obtain ⟨dir, hdir, hreached⟩ := exists_directory_of_resolve h
  unfold reached at hreached
  by_cases hstay : p.lastSegment = [] ∨ p.lastSegment = ['.']
  · rw [if_pos hstay] at hreached
    exact absurd (hreached ▸ hdir) hplace
  · rw [if_neg hstay] at hreached
    by_cases hparent : p.lastSegment = ['.', '.']
    · exact .inr hparent
    · rw [if_neg hparent] at hreached
      rw [not_or] at hstay
      refine .inl ⟨⟨hstay.1, hstay.2, hparent⟩, ?_⟩
      rw [← hreached, List.getLast?_concat]

/-- What is behind the last segment of a path that a file can be moved to: nothing. -/
theorem segments_of_lastSegment {p : Path} (h : p.lastSegment ≠ []) :
    ((Path.segmentsOf p.text.toList).reverse.dropWhile (· = [])).reverse =
      p.leadingSegments ++ [p.lastSegment] := by
  rw [Path.segmentsOf_text, List.reverse_append, List.reverse_singleton, List.singleton_append]
  rw [List.dropWhile_cons_of_neg (by simpa using h), List.reverse_cons, List.reverse_reverse]

/-- A path with a slash at its end asks for a directory: no file can be moved there. -/
theorem target_ne_ok_of_slash {s : FileStore} {p : Path} {overwrite : Bool} {place : Place}
    (hslash : p.text.toList.getLast? = some '/') : s.target p overwrite ≠ .ok place := by
  intro h
  unfold target at h
  simp only [hslash, if_true] at h
  split at h
  · exact nomatch h
  split at h
  · exact nomatch h
  split at h
  · exact nomatch h
  split at h
  · exact nomatch h
  next name _ =>
    cases hdir : List.foldlM s.enter (if p.text.toList.head? = some '/' then [] else s.current)
        ((Path.segmentsOf p.text.toList).reverse.dropWhile (· = [])).reverse.dropLast with
    | error f => rw [hdir] at h; exact nomatch h
    | ok dir =>
        rw [hdir] at h
        simp only [bind, Except.bind] at h
        cases henter : s.enter dir name with
        | error f => rw [henter] at h; exact nomatch h
        | ok q =>
            rw [henter] at h
            simp only at h
            -- what is left is a name that cannot be given, or one that asks for a directory
            split at h
            · exact nomatch h
            split at h <;> exact nomatch h

/-- A file can be moved to the place that its path resolves to if the path ends in a name and no directory
    stands there; and nothing may stand there if nothing may be replaced. -/
theorem target_eq_ok_iff {s : FileStore} {p : Path} {overwrite : Bool} {place : Place} :
    s.target p overwrite = .ok place ↔
      s.resolve p.text.toList = .ok place ∧ Path.IsName p.lastSegment ∧
        s.get? place ≠ some .directory ∧ (overwrite = false → s.get? place = none) := by
  by_cases hslash : p.text.toList.getLast? = some '/'
  · refine ⟨fun h => absurd h (target_ne_ok_of_slash hslash), fun h => ?_⟩
    have hne : p.text.toList ≠ [] := (resolve_eq_ok_iff.mp h.1).2.2.1
    exact absurd ((Path.lastSegment_eq_nil_iff hne).mpr hslash) h.2.1.1
  rw [resolve_eq_ok_iff]
  unfold target
  simp only
  by_cases hnul : p.text.toList.contains '\x00' = true
  · rw [if_pos hnul, hnul]
    exact ⟨(nomatch ·), fun h => nomatch h.1.1⟩
  rw [if_neg hnul]
  by_cases hlong : pathLimit < byteCount p.text.toList
  · rw [if_pos hlong]
    exact ⟨(nomatch ·), fun h => absurd h.1.2.1 (Nat.not_le_of_lt hlong)⟩
  rw [if_neg hlong]
  by_cases hnil : p.text.toList = []
  · rw [if_pos hnil]
    exact ⟨(nomatch ·), fun h => absurd hnil h.1.2.2.1⟩
  rw [if_neg hnil]
  have hfollow : p.text.toList.contains '\x00' = false ∧ byteCount p.text.toList ≤ pathLimit :=
    ⟨by simpa using hnul, Nat.le_of_not_lt hlong⟩
  have hlast : p.lastSegment ≠ [] := fun h => hslash ((Path.lastSegment_eq_nil_iff hnil).mp h)
  -- nothing is behind the last segment, so both sides follow the same segments from the same place
  rw [segments_of_lastSegment hlast, List.getLast?_concat, List.dropLast_concat,
    Path.segmentsOf_text, List.foldlM_append]
  show (p.leadingSegments.foldlM s.enter (s.origin p.text.toList) >>= _) = _ ↔ _
  cases p.leadingSegments.foldlM s.enter (s.origin p.text.toList) with
  | error f => exact ⟨(nomatch ·), fun h => nomatch h.1.2.2.2⟩
  | ok dir =>
      simp only [bind, Except.bind, List.foldlM_cons, List.foldlM_nil]
      cases s.enter dir p.lastSegment with
      | error f => exact ⟨(nomatch ·), fun h => nomatch h.1.2.2.2⟩
      | ok q =>
          simp only [hslash, if_false]
          by_cases hdots : p.lastSegment = ['.'] ∨ p.lastSegment = ['.', '.']
          · rw [if_pos hdots]
            refine ⟨(nomatch ·), fun h => ?_⟩
            exact absurd hdots (not_or.mpr h.2.1.2)
          rw [if_neg hdots]
          have hname : Path.IsName p.lastSegment := ⟨hlast, not_or.mp hdots⟩
          by_cases htaken : overwrite = false ∧ (s.get? q).isSome
          · rw [if_pos htaken]
            refine ⟨(nomatch ·), fun h => ?_⟩
            have hq : q = place := Except.ok.inj h.1.2.2.2
            have hfree := h.2.2.2 htaken.1
            rw [hq, hfree] at htaken
            exact nomatch htaken.2
          rw [if_neg htaken]
          have hfree : overwrite = false → s.get? q = none := fun ho => by
            simpa [ho] using htaken
          split
          · next hd =>
              refine ⟨(nomatch ·), fun h => ?_⟩
              have hq : q = place := Except.ok.inj h.1.2.2.2
              exact absurd (hq ▸ hd) h.2.2.1
          · next hd =>
              refine ⟨fun h => ?_, fun h => h.1.2.2.2⟩
              cases h
              exact ⟨⟨hfollow.1, hfollow.2, hnil, rfl⟩, hname, hd, hfree⟩

/-- Empty segments lead nowhere else. -/
theorem eq_of_foldlM_enter_empty {s : FileStore} {segments : List (List Char)} {dir place : Place}
    (hempty : ∀ segment ∈ segments, segment = []) (h : segments.foldlM s.enter dir = .ok place) :
    dir = place := by
  induction segments with
  | nil => exact Except.ok.inj h
  | cons segment segments ih =>
      cases hempty segment List.mem_cons_self
      rw [List.foldlM_cons] at h
      cases henter : s.enter dir [] with
      | error f => rw [henter] at h; exact nomatch h
      | ok next =>
          rw [henter] at h
          obtain ⟨-, -, hreached⟩ := enter_eq_ok_iff.mp henter
          have hsame : dir = next := hreached
          subst hsame
          exact ih (fun x hx => hempty x (List.mem_cons_of_mem _ hx)) h

/-- What stands where a path leads is not replaced without leave, whatever it is. -/
theorem target_of_exists {s : FileStore} {p : Path} {place : Place}
    (hresolve : s.resolve p.text.toList = .ok place) (hthere : (s.get? place).isSome = true) :
    s.target p false = .error .exists := by
  obtain ⟨hnul, hshort, hne, hfold⟩ := resolve_eq_ok_iff.mp hresolve
  unfold target
  simp only [hnul, Bool.false_eq_true, if_false, Nat.not_lt_of_le hshort, hne, true_and]
  -- slashes at the end lead on to the same place
  have hsplit : Path.segmentsOf p.text.toList =
      ((Path.segmentsOf p.text.toList).reverse.dropWhile (· = [])).reverse ++
        ((Path.segmentsOf p.text.toList).reverse.takeWhile (· = [])).reverse := by
    rw [← List.reverse_append, List.takeWhile_append_dropWhile, List.reverse_reverse]
  have hempty : ∀ segment ∈ ((Path.segmentsOf p.text.toList).reverse.takeWhile (· = [])).reverse,
      segment = [] := by
    intro segment hmem
    have hall := List.all_eq_true.mp List.all_takeWhile segment (List.mem_reverse.mp hmem)
    simpa using hall
  rw [hsplit, List.foldlM_append] at hfold
  generalize ((Path.segmentsOf p.text.toList).reverse.dropWhile (· = [])).reverse = segments
    at hfold ⊢
  cases hlast : segments.getLast? with
  | none => rfl
  | some name =>
      obtain ⟨leading, rfl⟩ := List.getLast?_eq_some_iff.mp hlast
      rw [List.foldlM_append] at hfold
      simp only [List.dropLast_concat]
      show (leading.foldlM s.enter (s.origin p.text.toList) >>= _) = _
      cases hleading : leading.foldlM s.enter (s.origin p.text.toList) with
      | error f => rw [hleading] at hfold; exact nomatch hfold
      | ok dir =>
          rw [hleading] at hfold
          simp only [bind, Except.bind, List.foldlM_cons, List.foldlM_nil] at hfold ⊢
          cases henter : s.enter dir name with
          | error f => rw [henter] at hfold; exact nomatch hfold
          | ok q =>
              rw [henter] at hfold
              cases eq_of_foldlM_enter_empty hempty hfold
              simp [hthere]

/-! ## What the same directories decide alike -/

section SameTree

variable {s t : FileStore}

theorem SameTree.enter (h : SameTree s t) {dir place : Place} {segment : List Char}
    (henter : s.enter dir segment = .ok place) : t.enter dir segment = .ok place := by
  obtain ⟨hdir, hshort, hreached⟩ := enter_eq_ok_iff.mp henter
  exact enter_eq_ok_iff.mpr ⟨(h.directories dir).mp hdir, hshort, hreached⟩

theorem SameTree.foldlM_enter (h : SameTree s t) {segments : List (List Char)} {dir place : Place}
    (hfold : segments.foldlM s.enter dir = .ok place) : segments.foldlM t.enter dir = .ok place := by
  induction segments generalizing dir with
  | nil => exact hfold
  | cons segment segments ih =>
      rw [List.foldlM_cons] at hfold ⊢
      cases henter : s.enter dir segment with
      | error f => rw [henter] at hfold; exact nomatch hfold
      | ok next =>
          rw [henter] at hfold
          rw [h.enter henter]
          exact ih hfold

/-- A path resolves to the same place. -/
theorem SameTree.resolve (h : SameTree s t) {text : List Char} {place : Place}
    (hresolve : s.resolve text = .ok place) : t.resolve text = .ok place := by
  obtain ⟨hnul, hshort, hne, hfold⟩ := resolve_eq_ok_iff.mp hresolve
  refine resolve_eq_ok_iff.mpr ⟨hnul, hshort, hne, ?_⟩
  have horigin : t.origin text = s.origin text := by unfold origin; rw [h.current]
  rw [horigin]
  exact h.foldlM_enter hfold

/-- A path lies in the same directory. -/
theorem SameTree.directoryOf (h : SameTree s t) {p : Path} {dir : Place}
    (hdir : s.directoryOf p = .ok dir) : t.directoryOf p = .ok dir := by
  unfold FileStore.directoryOf at hdir ⊢
  simp only [← h.current] at hdir ⊢
  split at hdir
  · exact nomatch hdir
  next hshort =>
    rw [if_neg hshort]
    cases hresolve : s.resolve p.directoryText with
    | error f => rw [hresolve] at hdir; exact nomatch hdir
    | ok q =>
        rw [hresolve] at hdir
        rw [h.resolve hresolve]
        simp only [bind, Except.bind] at hdir ⊢
        split at hdir
        · exact nomatch hdir
        · exact nomatch hdir
        · next hq => rw [(h.directories q).mp hq]; exact hdir

/-- A file can be moved to the same place, if nothing has come in its way there. -/
theorem SameTree.target (h : SameTree s t) {p : Path} {overwrite : Bool} {place : Place}
    (htarget : s.target p overwrite = .ok place)
    (hfree : overwrite = false → t.get? place = none) : t.target p overwrite = .ok place := by
  obtain ⟨hresolve, hname, hfile, -⟩ := target_eq_ok_iff.mp htarget
  refine target_eq_ok_iff.mpr ⟨h.resolve hresolve, hname, fun hd => ?_, hfree⟩
  exact hfile ((h.directories place).mpr hd)

end SameTree

end FileStore

end FacetQuery

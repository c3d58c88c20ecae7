import FacetQuery.FileStore

/-!
# `FacetQuery.FileStore.Staging` — how a file comes into being

A new file is made under a staging name beside its place, filled there, and then given its own name in one
step, so its place never holds a part of it. A staging name is one that is not taken (`freeName_free`), so
making a staging file hides nothing (`get?_of_stage`). A move takes away the staging file, changes one
other place at most, and that only if it succeeds (`get?_moveInto`).
-/

namespace FacetQuery

namespace FileStore

/-! ## Staging names -/

/-- The name of the `n`-th staging file. -/
def stagingName (n : Nat) : String := ".selconv-" ++ toString n ++ ".partial"

theorem stagingName_inj {m n : Nat} : stagingName m = stagingName n ↔ m = n := by
  refine ⟨fun h => ?_, fun h => h ▸ rfl⟩
  simp only [stagingName, String.append_left_inj, String.append_right_inj,
    Nat.toString_eq_ofList_toDigits, String.ofList_inj] at h
  rw [← Nat.ofDigitChars_ten_toDigits (n := m), h, Nat.ofDigitChars_ten_toDigits]

/-- A staging name for the file `p` that is not taken in its directory and is not its own name: with `k`
    entries one of the first `k + 2` will do. -/
def freeName (s : FileStore) (dir : Place) (p : Path) : String :=
  match (List.range (s.entries.length + 2)).find? fun n =>
      (s.get? (dir ++ [stagingName n])).isNone && p.fileName? != some (stagingName n) with
  | some n => stagingName n
  | none => stagingName 0

/-- A list that holds `f 0, …, f (m - 1)`, all different, has `m` members at least. -/
theorem le_length_of_injective {α : Type} [DecidableEq α] {f : Nat → α}
    (hf : ∀ {i j}, f i = f j → i = j) (m : Nat) (l : List α) (h : ∀ i < m, f i ∈ l) :
    m ≤ l.length := by
  induction m generalizing l with
  | zero => exact Nat.zero_le _
  | succ m ih =>
      have hm := h m (Nat.lt_succ_self m)
      have hle := ih (l.erase (f m)) fun i hi => by
        refine (List.mem_erase_of_ne fun he => ?_).mpr (h i (Nat.lt_succ_of_lt hi))
        exact Nat.ne_of_lt hi (hf he)
      have hpos := List.length_pos_of_mem hm
      rw [List.length_erase_of_mem hm] at hle
      omega

theorem mem_map_fst_of_get? {s : FileStore} {place : Place} (hne : place ≠ [])
    (h : (s.get? place).isSome = true) : place ∈ s.entries.map (·.1) := by
  simp only [get?, hne, if_false] at h
  obtain ⟨e, he⟩ := Option.isSome_iff_exists.mp h
  obtain ⟨l₁, l₂, heq, _⟩ := List.lookup_eq_some_iff.mp he
  simp [heq]

/-- Nothing has the free name, nor is it the name of the file itself. -/
theorem freeName_free (s : FileStore) (dir : Place) (p : Path) :
    s.get? (dir ++ [s.freeName dir p]) = none ∧ p.fileName? ≠ some (s.freeName dir p) := by
  unfold freeName
  split
  · next n h => simpa using List.find?_some h
  · next h =>
      exfalso
      have hall : ∀ i < s.entries.length + 2,
          dir ++ [stagingName i] ∈ (dir ++ [p.fileName?.getD ""]) :: s.entries.map (·.1) := by
        intro i hi
        have hi' := List.find?_eq_none.mp h i (List.mem_range.mpr hi)
        by_cases hp : p.fileName? = some (stagingName i)
        · simp [hp]
        · exact List.mem_cons_of_mem _
            (mem_map_fst_of_get? (by simp)
              (by simpa [hp, ← Option.isSome_iff_ne_none] using hi'))
      have hle := le_length_of_injective (f := fun i => dir ++ [stagingName i])
        (fun {i j} he => stagingName_inj.mp (by simpa using he)) _ _ hall
      simp at hle

/-! ## Staging -/

/-- How many bytes a path leaves for a staging name and the slash in front of it. -/
def stagingRoom : Nat := 24

/-- The directory that a path lies in. Staging files are named from the root on, and such a name must not
    be too long. -/
def directoryOf (s : FileStore) (p : Path) : Except FileFault Place := do
  let named := Path.absolute ⟨String.ofList p.directoryText⟩ s.current
  if !p.directoryText.contains '\x00' && pathLimit < named.text.utf8ByteSize + stagingRoom then
    .error .nameTooLong
  else
    let dir ← s.resolve p.directoryText
    match s.get? dir with
    | none => .error .notFound
    | some (.file _) => .error .notADirectory
    | some .directory => .ok dir

/-- Puts the contents into a new file with a name of its own, in the directory that `p` lies in. -/
def stage (s : FileStore) (p : Path) (contents : String) :
    Except FileFault (Place × FileStore) := do
  let dir ← s.directoryOf p
  let staging := dir ++ [s.freeName dir p]
  .ok (staging, s.insert staging (.file contents.toUTF8))

/-- The staging file is new, and nothing else changes. -/
theorem get?_of_stage {s after : FileStore} {p : Path} {contents : String} {staging : Place}
    (h : s.stage p contents = .ok (staging, after)) :
    s.get? staging = none ∧
      ∀ q, after.get? q = if q = staging then some (.file contents.toUTF8) else s.get? q := by
  unfold stage at h
  cases hd : s.directoryOf p with
  | error f => rw [hd] at h; exact nomatch h
  | ok dir =>
      rw [hd] at h
      injection h with h
      injection h with h₁ h₂
      subst h₁ h₂
      exact ⟨(s.freeName_free dir p).1, fun q => get?_insert s _ q _ (by simp)⟩

/-! ## Moving -/

/-- The place that a new name is to be put at: its directory must be there, and its last segment must be
    a name. A name with slashes behind it asks for a directory. -/
def target (s : FileStore) (p : Path) (overwrite : Bool) : Except FileFault Place :=
  let text := p.text.toList
  let segments := ((Path.segmentsOf text).reverse.dropWhile (· = [])).reverse
  if text.contains '\x00' then .error .invalidPath
  else if pathLimit < byteCount text then .error .nameTooLong
  else if text = [] then .error .notFound
  else
    match segments.getLast? with
    | none => .error (if overwrite then .busy else .exists)
    | some name => do
        let dir ← segments.dropLast.foldlM s.enter (if text.head? = some '/' then [] else s.current)
        let place ← s.enter dir name
        if name = ['.'] ∨ name = ['.', '.'] then .error (if overwrite then .busy else .exists)
        else if overwrite = false ∧ (s.get? place).isSome then .error .exists
        else if text.getLast? = some '/' then .error .notADirectory
        else
          match s.get? place with
          | some .directory => .error .isADirectory
          | _ => .ok place

/-- A place that a name can be put at holds no directory, and nothing at all if nothing may be replaced. -/
theorem get?_of_target {s : FileStore} {p : Path} {overwrite : Bool} {place : Place}
    (h : s.target p overwrite = .ok place) :
    s.get? place ≠ some .directory ∧ (overwrite = false → s.get? place = none) := by
  unfold target at h
  simp only at h
  split at h
  · exact nomatch h
  split at h
  · exact nomatch h
  split at h
  · exact nomatch h
  split at h
  · exact nomatch h
  next name _ =>
    cases hd : List.foldlM s.enter (if p.text.toList.head? = some '/' then [] else s.current)
        ((Path.segmentsOf p.text.toList).reverse.dropWhile (· = [])).reverse.dropLast with
    | error f => rw [hd] at h; exact nomatch h
    | ok dir =>
        rw [hd] at h
        simp only [bind, Except.bind] at h
        cases he : s.enter dir name with
        | error f => rw [he] at h; exact nomatch h
        | ok q =>
            rw [he] at h
            simp only at h
            split at h
            · exact nomatch h
            split at h
            · exact nomatch h
            next hfree =>
              split at h
              · exact nomatch h
              split at h
              · exact nomatch h
              next hdir =>
                injection h with h
                subst h
                exact ⟨fun hq => hdir hq, fun ho => by simpa [ho] using hfree⟩

/-- Gives the file at a staging place the name `p`, in one step, and returns the store after it. On a
    fault the staging file is gone and nothing else has changed; without `overwrite` nothing that exists
    is replaced. -/
def moveInto (s : FileStore) (staging : Place) (p : Path) (overwrite : Bool) :
    Except FileFault Unit × FileStore :=
  match s.get? staging, s.target p overwrite with
  | some e, .ok place => (.ok (), (s.erase staging).insert place e)
  | none, .ok _ => (.error .notFound, s)
  | _, .error fault => (.error fault, s.erase staging)

/-- After a move that succeeds its goal holds what was staged, the staging place is free, and no other
    place has changed; after one that fails the staging place is free and no other place has changed. -/
theorem get?_moveInto {s : FileStore} {staging : Place} (p : Path) (overwrite : Bool)
    (hne : staging ≠ []) :
    (∃ place e, s.target p overwrite = .ok place ∧ s.get? staging = some e ∧ place ≠ [] ∧
      (s.moveInto staging p overwrite).1 = .ok () ∧
      ∀ q, (s.moveInto staging p overwrite).2.get? q =
        if q = place then some e else if q = staging then none else s.get? q) ∨
    (∃ f, (s.moveInto staging p overwrite).1 = .error f ∧
      ∀ q, (s.moveInto staging p overwrite).2.get? q = if q = staging then none else s.get? q) := by
  unfold moveInto
  split
  · next e place he ht =>
      have hplace : place ≠ [] := fun h => (get?_of_target ht).1 (by simp [h, get?])
      refine .inl ⟨place, e, ht, he, hplace, rfl, fun q => ?_⟩
      rw [get?_insert _ _ _ _ hplace, get?_erase _ _ _ hne]
  · next hs _ =>
      refine .inr ⟨.notFound, rfl, fun q => ?_⟩
      split
      · next h => rw [h, hs]
      · rfl
  · next fault _ => exact .inr ⟨fault, rfl, fun q => get?_erase _ _ _ hne⟩

end FileStore

end FacetQuery

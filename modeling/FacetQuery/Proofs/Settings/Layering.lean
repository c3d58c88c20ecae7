import FacetQuery.Settings.Layers

/-!
# `FacetQuery.Proofs.Settings.Layering` — which of many values decides a setting

Settings are built up in steps: a source of values is added, a setting is overridden, names to exclude are
given. The sources are merged from the first to the last and the overrides put over the result, so a look-up in
the table that comes of it walks back through the steps: it finds the last override of the setting, else the
value that the last source to give one gives, else the default. As nothing is converted before the end,
only the value that decides a setting has to suit it.

## Contents
- `SettingValue.Alike`: values that are converted alike, as a table and the same table put over nothing are.
- `KeyPath.ofString?_of_plain`: a key without dots and brackets names a member of the table.
- `Layers.Call` and `Layers.ofCalls`: the steps, and what they build up.
- `Layers.lookup_putLayer`, `Layers.lookup_putOverrides`: what a layer and what the overrides do to a look-up.
- `Layers.deciding` and `Layers.layers_decide`.
-/

namespace FacetQuery

/-! ## Values put over values -/

namespace SettingValue

/-- Whether a value is a table. -/
def isTable : SettingValue → Bool
  | table _ => true
  | nil | bool _ | integer _ | float _ | text _ | list _ => false

/-- The keys of a table that is given as a value are all different. -/
def HasDistinctKeys (v : SettingValue) : Prop := (v.members.map (·.1)).Nodup

theorem members_of_not_table {v : SettingValue} (h : v.isTable = false) : v.members = [] := by
  cases v with
  | table ms => exact nomatch h
  | nil | bool | integer | float | text | list => rfl

/-- What is not a table takes the place of what was there. -/
theorem merge_of_not_table (old : SettingValue) {v : SettingValue} (h : v.isTable = false) :
    merge old v = v := by
  cases v with
  | table ms => exact nomatch h
  | nil | bool | integer | float | text | list => simp only [merge]

theorem put_of_not_mem {key : String} (v : SettingValue) {ms : List (String × SettingValue)}
    (h : key ∉ ms.map (·.1)) : put key v ms = ms ++ [(key, v)] := by
  induction ms with
  | nil => rfl
  | cons m ms ih =>
      rw [List.map_cons, List.mem_cons, not_or] at h
      rw [put, if_neg (Ne.symm h.1), ih h.2, List.cons_append]

/-- Members with new keys come behind those that are there. -/
theorem keys_mergeMembers (ms new : List (String × SettingValue))
    (h : ((ms ++ new).map (·.1)).Nodup) :
    (mergeMembers ms new).map (·.1) = (ms ++ new).map (·.1) := by
  induction new generalizing ms with
  | nil => rw [mergeMembers, List.append_nil]
  | cons m new ih =>
      obtain ⟨k, v⟩ := m
      have hk : k ∉ ms.map (·.1) := by
        intro hk
        rw [List.map_append, List.nodup_append] at h
        exact h.2.2 k hk k (by simp) rfl
      have hkeys : ((ms ++ [(k, merge (get k ms) v)] ++ new).map (·.1)) =
          (ms ++ (k, v) :: new).map (·.1) := by simp
      rw [mergeMembers, put_of_not_mem _ hk, ih _ (hkeys ▸ h), hkeys]

/-- No setting tells the two values apart. -/
structure Alike (v w : SettingValue) : Prop where
  texts : v.asTexts? = w.asTexts?
  optionalText : v.asOptionalText? = w.asOptionalText?
  bool : v.asBool? = w.asBool?
  count : v.asCount? = w.asCount?
  format : v.asFormat? = w.asFormat?

theorem Alike.refl (v : SettingValue) : Alike v v := ⟨rfl, rfl, rfl, rfl, rfl⟩

/-- A table counts for nothing but its keys. -/
theorem alike_of_keys {ms ns : List (String × SettingValue)} (h : ms.map (·.1) = ns.map (·.1)) :
    Alike (table ms) (table ns) := by
  refine ⟨rfl, rfl, rfl, rfl, ?_⟩
  match ms, ns, h with
  | [], [], _ => rfl
  | [(k, _)], [(l, _)], h =>
      cases h
      rfl
  | _ :: _ :: _, _ :: _ :: _, _ => rfl

/-- What is put over anything but a table counts for what it is by itself. -/
theorem alike_merge {old new : SettingValue} (hold : old.isTable = false)
    (hnew : new.HasDistinctKeys) : Alike (merge old new) new := by
  cases new with
  | table ms =>
      rw [merge, members_of_not_table hold]
      exact alike_of_keys (keys_mergeMembers [] ms hnew)
  | nil | bool | integer | float | text | list =>
      rw [merge_of_not_table old rfl]
      exact .refl _

end SettingValue

/-! ## Settings among the members of a table -/

namespace Settings

/-- The names of the settings. -/
def names : List String :=
  ["exclude", "output_extension", "input_extension", "workers", "overwrite", "format"]

/-- The setting can be made of the value. -/
def Suits (key : String) (v : SettingValue) : Prop :=
  match key with
  | "exclude" => v.asTexts?.isSome
  | "output_extension" | "input_extension" => v.asOptionalText?.isSome
  | "workers" => v.asCount?.isSome
  | "overwrite" => v.asBool?.isSome
  | "format" => v.asFormat?.isSome
  | _ => True

theorem Suits.congr {key : String} {v w : SettingValue} (h : v.Alike w) :
    Suits key v ↔ Suits key w := by
  simp only [Suits, h.texts, h.optionalText, h.count, h.bool, h.format]

/-- Each setting is what its value is turned into. -/
structure MadeOf (value : String → SettingValue) (s : Settings) : Prop where
  exclude : (value "exclude").asTexts? = some s.exclude
  outputExtension : (value "output_extension").asOptionalText? = some s.outputExtension
  inputExtension : (value "input_extension").asOptionalText? = some s.inputExtension
  workers : (value "workers").asCount? = some s.workers
  overwrite : (value "overwrite").asBool? = some s.overwrite
  format : (value "format").asFormat? = some s.format

theorem MadeOf.congr {value value' : String → SettingValue} {s : Settings}
    (h : ∀ key ∈ names, SettingValue.Alike (value key) (value' key)) :
    MadeOf value s ↔ MadeOf value' s := by
  simp only [names, List.forall_mem_cons] at h
  obtain ⟨exclude, output, input, workers, overwrite, format, -⟩ := h
  constructor
  · intro hs
    exact ⟨exclude.texts ▸ hs.1, output.optionalText ▸ hs.2, input.optionalText ▸ hs.3,
      workers.count ▸ hs.4, overwrite.bool ▸ hs.5, format.format ▸ hs.6⟩
  · intro hs
    exact ⟨exclude.texts ▸ hs.1, output.optionalText ▸ hs.2, input.optionalText ▸ hs.3,
      workers.count ▸ hs.4, overwrite.bool ▸ hs.5, format.format ▸ hs.6⟩

/-- What a conversion makes of the member with a key. -/
def field {α : Type} (ms : List (String × SettingValue)) (key : String)
    (convert : SettingValue → Option α) : Except SettingsFault α :=
  match convert (SettingValue.get key ms) with
  | some a => .ok a
  | none => .error (.unsuitable key)

theorem ofMembers_eq (ms : List (String × SettingValue)) : ofMembers ms = (do
    return {
      exclude := ← field ms "exclude" SettingValue.asTexts?
      outputExtension := ← field ms "output_extension" SettingValue.asOptionalText?
      inputExtension := ← field ms "input_extension" SettingValue.asOptionalText?
      workers := ← field ms "workers" SettingValue.asCount?
      overwrite := ← field ms "overwrite" SettingValue.asBool?
      format := ← field ms "format" SettingValue.asFormat? }) := rfl

section Field

variable {α β : Type} {ms : List (String × SettingValue)} {key : String}
  {convert : SettingValue → Option α} {f : SettingsFault}

theorem field_of_eq_some {a : α} (h : convert (SettingValue.get key ms) = some a) :
    field ms key convert = .ok a := by
  rw [field, h]

/-- What is made of a member and other things besides is made of the member first; if that fails, the fault
    names the key. -/
theorem field_bind_cases {next : α → Except SettingsFault β} {r : Except SettingsFault β}
    (h : (field ms key convert >>= next) = r) :
    (∃ a, convert (SettingValue.get key ms) = some a ∧ next a = r) ∨
      (convert (SettingValue.get key ms) = none ∧ r = .error (.unsuitable key)) := by
  cases hconvert : convert (SettingValue.get key ms) with
  | some a =>
      rw [field_of_eq_some hconvert] at h
      exact .inl ⟨a, rfl, h⟩
  | none =>
      rw [field, hconvert] at h
      exact .inr ⟨rfl, h.symm⟩

end Field

/-- Making settings of the members of a table succeeds with what they are turned into, or fails for a member
    that does not suit its setting. -/
theorem ofMembers_cases (ms : List (String × SettingValue)) :
    (∃ s, ofMembers ms = .ok s ∧ MadeOf (SettingValue.get · ms) s) ∨
      ∃ key ∈ names, ofMembers ms = .error (.unsuitable key) ∧
        ¬ Suits key (SettingValue.get key ms) := by
  have hmade := (ofMembers_eq ms).symm
  rcases field_bind_cases hmade with ⟨exclude, h₁, hmade⟩ | ⟨h, hfault⟩
  case inr => exact .inr ⟨_, by decide, hfault, by simp [Suits, h]⟩
  rcases field_bind_cases hmade with ⟨output, h₂, hmade⟩ | ⟨h, hfault⟩
  case inr => exact .inr ⟨_, by decide, hfault, by simp [Suits, h]⟩
  rcases field_bind_cases hmade with ⟨input, h₃, hmade⟩ | ⟨h, hfault⟩
  case inr => exact .inr ⟨_, by decide, hfault, by simp [Suits, h]⟩
  rcases field_bind_cases hmade with ⟨workers, h₄, hmade⟩ | ⟨h, hfault⟩
  case inr => exact .inr ⟨_, by decide, hfault, by simp [Suits, h]⟩
  rcases field_bind_cases hmade with ⟨overwrite, h₅, hmade⟩ | ⟨h, hfault⟩
  case inr => exact .inr ⟨_, by decide, hfault, by simp [Suits, h]⟩
  rcases field_bind_cases hmade with ⟨format, h₆, hmade⟩ | ⟨h, hfault⟩
  case inr => exact .inr ⟨_, by decide, hfault, by simp [Suits, h]⟩
  exact .inl ⟨_, hmade.symm, ⟨h₁, h₂, h₃, h₄, h₅, h₆⟩⟩

theorem MadeOf.unique {value : String → SettingValue} {s t : Settings} (hs : MadeOf value s)
    (ht : MadeOf value t) : s = t := by
  cases s
  cases t
  cases hs.1.symm.trans ht.1
  cases hs.2.symm.trans ht.2
  cases hs.3.symm.trans ht.3
  cases hs.4.symm.trans ht.4
  cases hs.5.symm.trans ht.5
  cases hs.6.symm.trans ht.6
  rfl

/-- Every value of which settings are made suits its setting. -/
theorem MadeOf.suits {value : String → SettingValue} {s : Settings} (h : MadeOf value s) :
    ∀ key ∈ names, Suits key (value key) := by
  simp [names, Suits, h.exclude, h.outputExtension, h.inputExtension, h.workers, h.overwrite, h.format]

/-- Settings are made of the members of a table if and only if each is what its member is turned into. -/
theorem ofMembers_eq_ok_iff {ms : List (String × SettingValue)} {s : Settings} :
    ofMembers ms = .ok s ↔ MadeOf (SettingValue.get · ms) s := by
  rcases ofMembers_cases ms with ⟨t, ht, hmade⟩ | ⟨key, hkey, hfault, hsuits⟩
  · rw [ht]
    exact ⟨fun h => Except.ok.inj h ▸ hmade, fun h => congrArg _ (hmade.unique h)⟩
  · rw [hfault]
    exact ⟨(nomatch ·), fun h => absurd (h.suits key hkey) hsuits⟩

end Settings

/-! ## Keys without dots and brackets -/

namespace KeyPath

/-- A key in which no step into a value can begin. -/
def IsPlain (key : String) : Prop := '.' ∉ key.toList ∧ '[' ∉ key.toList

instance {key : String} : Decidable (IsPlain key) := inferInstanceAs (Decidable (_ ∧ _))

theorem steps?_of_plain (fuel : Nat) {c : Char} {cs : List Char} (hdot : c ≠ '.')
    (hbracket : c ≠ '[') : steps? fuel (c :: cs) = none := by
  cases fuel with
  | zero => rfl
  | succ fuel => rw [steps?] <;> intros <;> simp_all

/-- A plain key goes to the member with this very name, whether it can be read as a place or not. -/
theorem ofString?_of_plain {key : String} (h : IsPlain key) :
    (ofString? key).getD (.ofName key) = .ofName key := by
  simp only [ofString?]
  split
  · rfl
  · cases hrest : key.toList.dropWhile isKeyChar with
    | nil =>
        have hall := List.takeWhile_append_dropWhile (p := isKeyChar) (l := key.toList)
        rw [hrest, List.append_nil] at hall
        cases key.toList.length <;> simp [hall, steps?, ofName]
    | cons c cs =>
        have hc : c ∈ key.toList :=
          (List.dropWhile_sublist isKeyChar).mem (hrest ▸ List.mem_cons_self)
        rw [steps?_of_plain _ (fun hdot => h.1 (hdot ▸ hc)) fun hbracket => h.2 (hbracket ▸ hc)]
        rfl

/-- The name of a setting is a key that leads to the setting. -/
theorem ofString?_of_mem_names {key : String} (h : key ∈ Settings.names) :
    ofString? key = some (.ofName key) := by
  simp only [Settings.names, List.mem_cons, List.not_mem_nil, or_false] at h
  rcases h with rfl | rfl | rfl | rfl | rfl | rfl <;> decide

end KeyPath

namespace Layers

open SettingValue

/-! ## Look-ups -/

theorem lookup_singleton {α β : Type} [DecidableEq α] (a b : α) (v : β) :
    [(b, v)].lookup a = if a = b then some v else none := by
  by_cases h : a = b
  · simp [h]
  · simp [List.lookup_cons, h, beq_eq_false_iff_ne.mpr h]

section Lookup

variable {key : String} {ms : List (String × SettingValue)}

theorem lookup_putMember {m : String × SettingValue} (hplain : KeyPath.IsPlain m.1)
    (htable : m.1 = key → m.2.isTable = false) :
    (putMember ms m).lookup key = if key = m.1 then some m.2 else ms.lookup key := by
  rw [putMember, KeyPath.ofString?_of_plain hplain]
  refine (lookup_put m.1 _ ms key).trans ?_
  by_cases hkey : key = m.1
  · rw [if_pos hkey, if_pos hkey]
    exact congrArg some (merge_of_not_table _ (htable hkey.symm))
  · rw [if_neg hkey, if_neg hkey]

/-- In a table that a layer was put over, a setting has the value that the layer gives for it, the last one if
    there are several, or else the one it had. -/
theorem lookup_putLayer {layer : List (String × SettingValue)}
    (hplain : ∀ m ∈ layer, KeyPath.IsPlain m.1) (htable : ∀ m ∈ layer, m.1 = key → m.2.isTable = false) :
    (putLayer ms layer).lookup key = (layer.reverse.lookup key).or (ms.lookup key) := by
  induction layer generalizing ms with
  | nil => rfl
  | cons m layer ih =>
      rw [List.forall_mem_cons] at hplain htable
      rw [putLayer, List.foldl_cons, ← putLayer, ih hplain.2 htable.2,
        lookup_putMember hplain.1 htable.1, List.reverse_cons, List.lookup_append, Option.or_assoc,
        lookup_singleton]
      by_cases hkey : key = m.1 <;> simp [hkey]

/-- After several layers the last one that gives a value counts. -/
theorem lookup_putLayers {given : List (List (String × SettingValue))}
    (hplain : ∀ layer ∈ given, ∀ m ∈ layer, KeyPath.IsPlain m.1)
    (htable : ∀ layer ∈ given, ∀ m ∈ layer, m.1 = key → m.2.isTable = false) :
    (given.foldl putLayer ms).lookup key =
      (given.reverse.findSome? (·.reverse.lookup key)).or (ms.lookup key) := by
  induction given generalizing ms with
  | nil => rfl
  | cons layer given ih =>
      rw [List.forall_mem_cons] at hplain htable
      rw [List.foldl_cons, ih hplain.2 htable.2, lookup_putLayer hplain.1 htable.1, List.reverse_cons,
        List.findSome?_append, Option.or_assoc]
      simp

end Lookup

/-! ## Overrides -/

/-- The overrides with one more, which takes the place of an earlier one of the same setting. -/
def putOverride (os : List (KeyPath × SettingValue)) (p : KeyPath) (v : SettingValue) :
    List (KeyPath × SettingValue) :=
  os.filter (·.1 ≠ p) ++ [(p, v)]

section Overrides

variable {os : List (KeyPath × SettingValue)} {p q : KeyPath} {v : SettingValue}

theorem lookup_filter_ne (os : List (KeyPath × SettingValue)) (p q : KeyPath) :
    (os.filter (·.1 ≠ p)).lookup q = if q = p then none else os.lookup q := by
  induction os with
  | nil => simp
  | cons o os ih =>
      obtain ⟨r, v⟩ := o
      have hcons : ((r, v) :: os).lookup q = if q = r then some v else os.lookup q := by
        rw [← List.singleton_append, List.lookup_append, lookup_singleton]
        split <;> rfl
      by_cases hr : r = p
      · rw [List.filter_cons_of_neg (by simpa using hr), ih, hcons, hr]
        by_cases hq : q = p <;> simp [hq]
      · rw [List.filter_cons_of_pos (by simpa using hr), ← List.singleton_append,
          List.lookup_append, lookup_singleton, ih, hcons]
        by_cases hq : q = p
        · simp [hq, Ne.symm hr]
        · by_cases hqr : q = r <;> simp [hq, hqr, hr]

theorem lookup_putOverride :
    (putOverride os p v).lookup q = if q = p then some v else os.lookup q := by
  rw [putOverride, List.lookup_append, lookup_filter_ne, lookup_singleton]
  by_cases hq : q = p <;> simp [hq]

theorem nodup_putOverride (h : (os.map (·.1)).Nodup) : ((putOverride os p v).map (·.1)).Nodup := by
  rw [putOverride, List.map_append, List.nodup_append]
  refine ⟨(List.filter_sublist.map _).nodup h, by simp, ?_⟩
  intro a ha b hb hab
  obtain ⟨o, ho, rfl⟩ := List.mem_map.mp ha
  rw [List.mem_map] at hb
  simp_all [List.mem_filter]

/-- In a table that overrides of different settings were put over, a setting has the value of its override,
    put over the one that it had. -/
theorem lookup_putOverrides {key : String} {ms : List (String × SettingValue)}
    (hdistinct : (os.map (·.1)).Nodup) (hnames : ∀ o ∈ os, ∃ name, o.1 = .ofName name) :
    (os.foldl (fun ms (p, v) => p.put v ms) ms).lookup key =
      ((os.lookup (.ofName key)).map (merge (get key ms))).or (ms.lookup key) := by
  induction os generalizing ms with
  | nil => rfl
  | cons o os ih =>
      obtain ⟨⟨name, hname⟩, hrest⟩ := List.forall_mem_cons.mp hnames
      rw [List.map_cons, List.nodup_cons] at hdistinct
      obtain ⟨p, v⟩ := o
      cases hname
      have hput : ∀ other, (((KeyPath.ofName name).put v ms).lookup other) =
          if other = name then some (merge (get name ms) v) else ms.lookup other :=
        fun other => lookup_put name _ ms other
      change (os.foldl _ ((KeyPath.ofName name).put v ms)).lookup key =
        ((([(KeyPath.ofName name, v)] ++ os).lookup (.ofName key)).map _).or _
      rw [ih hdistinct.2 hrest, List.lookup_append, lookup_singleton, hput]
      by_cases hkey : key = name
      · subst hkey
        -- no later override is of this setting
        have hnone : os.lookup (.ofName key) = none := by
          refine List.lookup_eq_none_iff.mpr fun o ho => bne_iff_ne.mpr fun heq => ?_
          exact hdistinct.1 (List.mem_map.mpr ⟨o, ho, heq.symm⟩)
        simp [hnone]
      · have hne : KeyPath.ofName key ≠ .ofName name := fun h => hkey (congrArg KeyPath.root h)
        simp [hkey, hne, SettingValue.get, hput]

end Overrides

/-! ## Names to exclude -/

/-- Names that are added come behind those that are there, those already there left out, and each once. -/
theorem addMissing_eq (names extra : List String) :
    addMissing names extra = names ++ (extra.filter (· ∉ names)).eraseDups := by
  induction extra generalizing names with
  | nil => simp [addMissing]
  | cons n extra ih =>
      rw [addMissing, List.foldl_cons, ← addMissing, ih]
      by_cases hn : n ∈ names
      · simp [hn]
      · have hkeep : extra.filter (· ∉ names ++ [n]) =
            (extra.filter (· ∉ names)).filter fun m => !m == n := by
          rw [List.filter_filter]
          refine List.filter_congr fun m _ => ?_
          by_cases hm : m ∈ names <;> by_cases hmn : m = n <;> simp [hm, hmn]
        rw [List.filter_cons_of_pos (by simpa using hn), List.eraseDups_cons, ← hkeep]
        simp [hn]

/-! ## Steps -/

/-- A step in the making of settings. -/
inductive Call where
  /-- A source is added on top of those there are. -/
  | source (l : Layer)
  /-- A value is put over what the sources give for a key. -/
  | override (key : String) (v : SettingValue)
  /-- More names are excluded. -/
  | exclude (names : List String)

namespace Call

def source? : Call → Option Layer
  | source l => some l
  | override .. | exclude _ => none

def override? : Call → Option (String × SettingValue)
  | override key v => some (key, v)
  | source _ | exclude _ => none

def excluded : Call → List String
  | exclude names => names
  | source _ | override .. => []

/-- The layers after the step. -/
def apply (ls : Layers) : Call → Except SettingsFault Layers
  | source l => .ok (ls.add l)
  | override key v => ls.override key v
  | exclude names => .ok (ls.exclude names)

end Call

/-- The layers after all steps. -/
def ofCalls (calls : List Call) : Except SettingsFault Layers := calls.foldlM Call.apply defaults

/-- The sources in the order added. -/
def sources (calls : List Call) : List Layer := calls.filterMap Call.source?

/-- The overrides in the order given. -/
def overridden (calls : List Call) : List (String × SettingValue) := calls.filterMap Call.override?

/-- The names to exclude, in the order given. -/
def exclusions (calls : List Call) : List String := calls.flatMap Call.excluded

/-- The overrides that are left of those given in this order. -/
def overridesOf (os : List (KeyPath × SettingValue)) (given : List (String × SettingValue)) :
    Except SettingsFault (List (KeyPath × SettingValue)) :=
  given.foldlM (fun os (key, v) =>
    match KeyPath.ofString? key with
    | some p => .ok (putOverride os p v)
    | none => .error (.malformedKey key)) os

theorem foldlM_apply (ls : Layers) (calls : List Call) : calls.foldlM Call.apply ls =
    (overridesOf ls.overrides (overridden calls)).map fun os =>
      ⟨ls.layers ++ sources calls, os, ls.extraExclusions ++ exclusions calls⟩ := by
  induction calls generalizing ls with
  | nil => simp [overridesOf, overridden, sources, exclusions, Except.map, pure, Except.pure]
  | cons call calls ih =>
      rw [List.foldlM_cons]
      cases call with
      | source l =>
          change calls.foldlM Call.apply (ls.add l) = _
          rw [ih]
          simp [add, overridden, sources, exclusions, List.filterMap_cons, Call.source?, Call.override?,
            Call.excluded]
      | exclude names =>
          change calls.foldlM Call.apply (ls.exclude names) = _
          rw [ih]
          simp [exclude, overridden, sources, exclusions, List.filterMap_cons, Call.source?, Call.override?,
            Call.excluded]
      | override key v =>
          have hsame : sources (.override key v :: calls) = sources calls ∧
              exclusions (.override key v :: calls) = exclusions calls := ⟨rfl, rfl⟩
          have hmore : overridden (.override key v :: calls) = (key, v) :: overridden calls := rfl
          rw [hsame.1, hsame.2, hmore, overridesOf, List.foldlM_cons]
          cases hkey : KeyPath.ofString? key with
          | none =>
              simp only [Call.apply, override, hkey]
              rfl
          | some p =>
              simp only [Call.apply, override, hkey]
              exact ih { ls with overrides := putOverride ls.overrides p v }

/-- What the steps build up depends on the sources, the overrides and the names to exclude, each in their own
    order, and not on how they are mixed. -/
theorem ofCalls_eq (calls : List Call) : ofCalls calls =
    (overridesOf [] (overridden calls)).map fun os => ⟨sources calls, os, exclusions calls⟩ :=
  foldlM_apply defaults calls

/-- Of overrides of settings the last one of each is left. -/
theorem overridesOf_eq_ok {os : List (KeyPath × SettingValue)} {given : List (String × SettingValue)}
    (hgiven : ∀ o ∈ given, o.1 ∈ Settings.names) (hdistinct : (os.map (·.1)).Nodup)
    (hnames : ∀ o ∈ os, ∃ name, o.1 = .ofName name) :
    ∃ left, overridesOf os given = .ok left ∧ (left.map (·.1)).Nodup ∧
      (∀ o ∈ left, ∃ name, o.1 = .ofName name) ∧
      ∀ key, left.lookup (.ofName key) = (given.reverse.lookup key).or (os.lookup (.ofName key)) := by
  induction given generalizing os with
  | nil => exact ⟨os, rfl, hdistinct, hnames, fun key => rfl⟩
  | cons o given ih =>
      obtain ⟨name, v⟩ := o
      rw [List.forall_mem_cons] at hgiven
      have hput : ∀ o ∈ putOverride os (.ofName name) v, ∃ name, o.1 = .ofName name := by
        intro o ho
        rcases List.mem_append.mp ho with ho | ho
        · exact hnames o (List.mem_filter.mp ho).1
        · exact ⟨name, congrArg Prod.fst (List.mem_singleton.mp ho)⟩
      obtain ⟨left, hleft, hnodup, hroots, hlookup⟩ := ih hgiven.2 (nodup_putOverride hdistinct) hput
      refine ⟨left, ?_, hnodup, hroots, fun key => ?_⟩
      · simp only [overridesOf, List.foldlM_cons, KeyPath.ofString?_of_mem_names hgiven.1]
        exact hleft
      · rw [hlookup, lookup_putOverride, List.reverse_cons, List.lookup_append, lookup_singleton,
          Option.or_assoc]
        by_cases hkey : key = name
        · simp [hkey]
        · have hne : KeyPath.ofName key ≠ .ofName name := fun h => hkey (congrArg KeyPath.root h)
          simp [hkey, hne]

/-! ## The deciding value -/

section Deciding

variable (store : FileStore) (env : List (String × String)) (calls : List Call)

/-- The members that a source gives; none if it cannot be read. -/
def given (l : Layer) : List (String × SettingValue) :=
  match readLayer store env l with
  | .ok ms => ms
  | .error _ => []

/-- The value that decides a setting: that of its last override, or else that of the last source that gives
    one, or else the default. -/
def deciding (key : String) : SettingValue :=
  (((overridden calls).reverse.lookup key).or
    (((sources calls).reverse.findSome? fun l => (given store env l).reverse.lookup key).or
      (defaultMembers.lookup key))).getD .nil

/-- Steps whose files are there and can be read, with plain keys, and with tables for no setting. -/
structure Regular : Prop where
  /-- A file that is required is there. -/
  there : ∀ p, .source (.file p true) ∈ calls → (fileBytes? store p).isSome
  /-- A file that is there is well formed. -/
  wellFormed : ∀ p required bytes, .source (.file p required) ∈ calls → fileBytes? store p = some bytes →
    (Toml.parse? (Text.decodeLossy (Text.dropByteOrderMark bytes.toList))).isSome
  plain : ∀ l, .source l ∈ calls → ∀ m ∈ given store env l, KeyPath.IsPlain m.1
  noTable : ∀ l, .source l ∈ calls → ∀ m ∈ given store env l, m.1 ∈ Settings.names →
    m.2.isTable = false
  /-- Only settings are overridden, and a table for one of them has each key once. -/
  overrides : ∀ key v, .override key v ∈ calls → key ∈ Settings.names ∧ v.HasDistinctKeys

end Deciding

section Regular

variable {store : FileStore} {env : List (String × String)} {calls : List Call}

theorem mem_sources {l : Layer} (h : l ∈ sources calls) : .source l ∈ calls := by
  obtain ⟨call, hcall, hl⟩ := List.mem_filterMap.mp h
  cases call <;> cases hl
  exact hcall

theorem mem_overridden {key : String} {v : SettingValue} (h : (key, v) ∈ overridden calls) :
    .override key v ∈ calls := by
  obtain ⟨call, hcall, ho⟩ := List.mem_filterMap.mp h
  cases call <;> cases ho
  exact hcall

/-- Every source can be read. -/
theorem Regular.readLayer_eq (h : Regular store env calls) {l : Layer} (hl : .source l ∈ calls) :
    readLayer store env l = .ok (given store env l) := by
  have hok : ∃ ms, readLayer store env l = .ok ms := by
    cases l with
    | environment head => exact ⟨_, rfl⟩
    | file p required =>
        change ∃ ms, readFile store p required = .ok ms
        unfold readFile
        split
        · next hnone =>
            cases required with
            | true => exact absurd (h.there p hl) (by simp [hnone])
            | false => exact ⟨[], rfl⟩
        · next bytes hbytes =>
            obtain ⟨ms, hms⟩ := Option.isSome_iff_exists.mp (h.wellFormed p required bytes hl hbytes)
            rw [hms]
            exact ⟨ms, rfl⟩
  obtain ⟨ms, hms⟩ := hok
  rw [given, hms]

theorem mapM_readLayer (ls : List Layer)
    (h : ∀ l ∈ ls, readLayer store env l = .ok (given store env l)) :
    ls.mapM (readLayer store env) = .ok (ls.map (given store env)) := by
  induction ls with
  | nil => rfl
  | cons l ls ih =>
      rw [List.forall_mem_cons] at h
      rw [List.mapM_cons, h.1, ih h.2]
      rfl

theorem mem_of_lookup_reverse {key : String} {v : SettingValue} {ms : List (String × SettingValue)}
    (h : ms.reverse.lookup key = some v) : (key, v) ∈ ms := by
  obtain ⟨before, after, heq, -⟩ := List.lookup_eq_some_iff.mp h
  exact List.mem_reverse.mp (heq ▸ List.mem_append_right _ List.mem_cons_self)

/-- The table before any override. -/
def sourceTable (store : FileStore) (env : List (String × String)) (calls : List Call) :
    List (String × SettingValue) :=
  ((sources calls).map (given store env)).foldl putLayer defaultMembers

/-- Before any override a setting has the value of the last source that gives one, or its default, and no
    table. -/
theorem Regular.lookup_sourceTable (h : Regular store env calls) {key : String}
    (hkey : key ∈ Settings.names) :
    (sourceTable store env calls).lookup key =
        ((sources calls).reverse.findSome? fun l => (given store env l).reverse.lookup key).or
          (defaultMembers.lookup key) ∧
      (SettingValue.get key (sourceTable store env calls)).isTable = false := by
  have hlookup : (sourceTable store env calls).lookup key =
      ((sources calls).reverse.findSome? fun l => (given store env l).reverse.lookup key).or
        (defaultMembers.lookup key) := by
    rw [sourceTable, lookup_putLayers, ← List.map_reverse, List.findSome?_map]
    · rfl
    · intro layer hlayer
      obtain ⟨l, hl, rfl⟩ := List.mem_map.mp hlayer
      exact h.plain l (mem_sources hl)
    · intro layer hlayer m hm hmkey
      obtain ⟨l, hl, rfl⟩ := List.mem_map.mp hlayer
      exact h.noTable l (mem_sources hl) m hm (hmkey ▸ hkey)
  refine ⟨hlookup, ?_⟩
  rw [SettingValue.get, hlookup]
  cases hfound : (sources calls).reverse.findSome? fun l => (given store env l).reverse.lookup key with
  | some v =>
      obtain ⟨l, hl, hv⟩ := List.exists_of_findSome?_eq_some hfound
      exact h.noTable l (mem_sources (List.mem_reverse.mp hl)) _ (mem_of_lookup_reverse hv) hkey
  | none =>
      simp only [Settings.names, List.mem_cons, List.not_mem_nil, or_false] at hkey
      rcases hkey with rfl | rfl | rfl | rfl | rfl | rfl <;> rfl

/-- In the table that the layers make up no setting tells its value from the one that decides it. -/
theorem Regular.table_alike (h : Regular store env calls) :
    ∃ ls ms, ofCalls calls = .ok ls ∧ ls.table store env = .ok ms ∧
      ls.extraExclusions = exclusions calls ∧
      ∀ key ∈ Settings.names, Alike (SettingValue.get key ms) (deciding store env calls key) := by
  obtain ⟨os, hos, hdistinct, hroots, hlookup⟩ := @overridesOf_eq_ok [] (overridden calls)
    (fun o ho => (h.overrides o.1 o.2 (mem_overridden ho)).1) (by simp) (by simp)
  refine ⟨⟨sources calls, os, exclusions calls⟩,
    os.foldl (fun ms (p, v) => p.put v ms) (sourceTable store env calls), ?_, ?_, rfl,
    fun key hkey => ?_⟩
  · rw [ofCalls_eq, hos]
    rfl
  · rw [Layers.table, mapM_readLayer _ fun l hl => h.readLayer_eq (mem_sources hl)]
    rfl
  · obtain ⟨hsources, hplain⟩ := h.lookup_sourceTable hkey
    rw [SettingValue.get, lookup_putOverrides hdistinct hroots, hlookup, hsources, deciding]
    cases hover : (overridden calls).reverse.lookup key with
    | none => exact .refl _
    | some v =>
        have hv := mem_overridden (mem_of_lookup_reverse hover)
        exact alike_merge hplain (h.overrides key v hv).2

end Regular

/-- The settings that the layers make up, from the table that they make up. -/
theorem decided_of_table {ls : Layers} {store : FileStore} {env : List (String × String)}
    {ms : List (String × SettingValue)} (h : ls.table store env = .ok ms) :
    ls.decided store env = (Settings.ofMembers ms).map fun t =>
      { t with exclude := addMissing t.exclude ls.extraExclusions } := by
  rw [decided, h]
  change (Settings.ofMembers ms >>= _) = _
  cases Settings.ofMembers ms <;> rfl

/-- **The last override decides, else the last source, else the default.** Take any steps whose files are there
    and can be read. Settings are made of the values that decide them, and of nothing else: they are what the
    deciding values are turned into, with the names given one by one behind the decided names to exclude, those
    already there left out and each once. If there are none, some deciding value does not suit its setting, and
    the fault names the setting. Steps in which the sources, the overrides and the names to exclude are mixed in
    another way build up the same. -/
theorem layers_decide {store : FileStore} {env : List (String × String)} {calls : List Call}
    (h : Regular store env calls) :
    ∃ ls, ofCalls calls = .ok ls ∧
      (∀ s, ls.decided store env = .ok s ↔
        ∃ t : Settings, t.MadeOf (deciding store env calls) ∧
          s = { t with exclude :=
                  t.exclude ++ ((exclusions calls).filter (· ∉ t.exclude)).eraseDups }) ∧
      (∀ f, ls.decided store env = .error f → ∃ key ∈ Settings.names,
        f = .unsuitable key ∧ ¬ Settings.Suits key (deciding store env calls key)) ∧
      ∀ others, sources others = sources calls → overridden others = overridden calls →
        exclusions others = exclusions calls → ofCalls others = .ok ls := by
  obtain ⟨ls, ms, hls, htable, hextra, halike⟩ := h.table_alike
  refine ⟨ls, hls, ?_, ?_, fun others h₁ h₂ h₃ => ?_⟩
  · intro s
    simp only [← addMissing_eq, ← Settings.MadeOf.congr halike, ← Settings.ofMembers_eq_ok_iff]
    rw [decided_of_table htable, hextra]
    cases Settings.ofMembers ms <;> simp [Except.map, eq_comm]
  · intro f hf
    rw [decided_of_table htable] at hf
    rcases Settings.ofMembers_cases ms with ⟨t, ht, -⟩ | ⟨key, hkey, hfault, hsuits⟩
    · rw [ht] at hf
      exact nomatch hf
    · rw [hfault] at hf
      refine ⟨key, hkey, (Except.error.inj hf).symm, ?_⟩
      rwa [← Settings.Suits.congr (halike key hkey)]
  · rw [ofCalls_eq, h₁, h₂, h₃, ← ofCalls_eq, hls]

/-- A settings file beside the environment; neither it nor the first set of variables gives a number of
    workers. -/
def mixedStore : FileStore :=
  ⟨["w"], [(["w"], .directory), (["w", "s.toml"], .file "workers = [1]\nformat = \"json\"\n".toUTF8)]⟩

def mixedVariables : List (String × String) :=
  [("FIRST_WORKERS", "many"), ("LAST_WORKERS", "3"), ("LAST_EXCLUDE", "x,y")]

/-- Two overrides of one setting and names to exclude between three sources. -/
def mixedCalls : List Call :=
  [.exclude ["b", "x", "b"], .source (.environment "FIRST"),
    .override "output_extension" (.list []), .source (.file ⟨"s.toml"⟩ true),
    .override "output_extension" (.text "sel"), .source (.environment "LAST")]

/-- The values that do not suit their settings are replaced, and so do no harm. -/
theorem layers_decide_mixed : Regular mixedStore mixedVariables mixedCalls ∧
    ∃ ls, ofCalls mixedCalls = .ok ls ∧ ls.decided mixedStore mixedVariables =
      .ok ⟨["x", "y", "b"], some "sel", none, 3, true, .json⟩ := by
  have hsource : ∀ l, .source l ∈ mixedCalls →
      l = .environment "FIRST" ∨ l = .file ⟨"s.toml"⟩ true ∨ l = .environment "LAST" := by
    simp [mixedCalls]
  have h : Regular mixedStore mixedVariables mixedCalls := by
    refine ⟨fun p hp => ?_, fun p required bytes hp hbytes => ?_, fun l hl => ?_, fun l hl => ?_,
      fun key v ho => ?_⟩
    · rcases hsource _ hp with hp | hp | hp <;> cases hp
      rfl
    · rcases hsource _ hp with hp | hp | hp <;> cases hp
      cases hbytes
      decide +kernel
    · rcases hsource l hl with rfl | rfl | rfl <;> decide +kernel
    · rcases hsource l hl with rfl | rfl | rfl <;> decide +kernel
    · simp only [mixedCalls, List.mem_cons, reduceCtorEq, Call.override.injEq, List.not_mem_nil,
        false_or, or_false] at ho
      rcases ho with ⟨rfl, rfl⟩ | ⟨rfl, rfl⟩ <;> exact ⟨by decide, by simp [HasDistinctKeys, members]⟩
  obtain ⟨ls, hls, hdecided, -⟩ := layers_decide h
  refine ⟨h, ls, hls, (hdecided _).mpr ⟨⟨["x", "y"], some "sel", none, 3, true, .json⟩, ?_, ?_⟩⟩
  · constructor <;> decide +kernel
  · decide

end Layers

end FacetQuery

import FacetQuery.Proofs.Number.Numerals
import FacetQuery.Proofs.Query.Layout
import FacetQuery.Proofs.Settings.Layering
import FacetQuery.Proofs.Text.Ascii

/-!
# `FacetQuery.Proofs.Settings.Variables` — what the environment says, and what is made of it

The value of a variable is a text, but it is taken for a truth value or a number if it is written like one,
whatever setting it is for. Names to exclude and extensions are words of letters, digits, underscores, hyphens
and stars, and among these `Guessed` says which are written so: `true` and `false`, digits that may have an
exponent, and the words for what is infinite or no number.

So a list of names can be given by a variable, with commas between the names, unless it is one name that is
written like a truth value or a number: then the value is no list, and loading the settings fails
(`exclude_by_variable`). Two names cannot be taken for anything else, because of the comma.

## Contents
- `Guessed`, and `variableValue` on texts that are and that are not.
- `OnlyVariable`: an environment with one variable behind a head.
- `regular_of_reads`, `Regular.load_of_made`, `Regular.load_of_no_list`: loading from the deciding values.
- `deciding_of_given`, `regular_of_readLayer`: a source that gives one value, over the defaults.
- `exclude_by_variable`, and a name that cannot be excluded in this way.
-/

namespace FacetQuery

namespace Layers

open Selection (AllIn)

/-! ## Texts that are taken for other values -/

/-- A text in which no point, no plus sign and no character beyond ASCII stands. -/
structure IsPlainText (cs : List Char) : Prop where
  ascii : Text.IsAscii cs
  noPoint : '.' ∉ cs
  noPlus : '+' ∉ cs

/-- One of the words for truth values, in any case. -/
def IsTruthWord (cs : List Char) : Prop :=
  cs.map Char.toLower = "true".toList ∨ cs.map Char.toLower = "false".toList

/-- A text that is written like a truth value or a number. -/
def Guessed (cs : List Char) : Prop := IsTruthWord cs ∨ ∃ x, Binary64.Denotes cs x

section Value

variable {key value : String}

theorem lower_eq_iff (h : Text.IsAscii value.toList) (word : String) :
    Text.lower value = word ↔ value.toList.map Char.toLower = word.toList := by
  rw [← Text.toList_lower_of_ascii h, String.toList_inj]

theorem variableValue_of_truth (h : Text.IsAscii value.toList) {b : Bool}
    (hword : value.toList.map Char.toLower = (if b then "true" else "false").toList) :
    variableValue key value = .bool b := by
  have hlower := (lower_eq_iff h _).mpr hword
  cases b <;> simp [variableValue, hlower]

/-- What is no word for a truth value is tried as an integer first, then as any number. -/
theorem variableValue_of_not_truth (h : Text.IsAscii value.toList)
    (hword : ¬ IsTruthWord value.toList) : variableValue key value =
      match int64? value.toList, Binary64.ofText? value.toList with
      | some i, _ => .integer i
      | none, some x => .float x
      | none, none =>
          if key = "exclude" then
            .list ((value.toList.splitOn ',').map fun name => .text (String.ofList name))
          else .text value := by
  rw [IsTruthWord, ← lower_eq_iff h, ← lower_eq_iff h, not_or] at hword
  simp only [variableValue, hword.1, hword.2, if_false]
  split <;> split <;> simp_all

/-- A number is not written like a truth value: it begins in another way. -/
theorem not_isTruthWord_of_denotes {cs : List Char} {x : Binary64} (h : Binary64.Denotes cs x) :
    ¬ IsTruthWord cs := by
  have hhead (hword : IsTruthWord cs) : ∃ c ∈ cs.head?, c.toLower = 't' ∨ c.toLower = 'f' := by
    cases cs with
    | nil => rcases hword with hword | hword <;> exact nomatch hword
    | cons c cs =>
        exact ⟨c, rfl, hword.imp (fun h => (List.cons.inj h).1) fun h => (List.cons.inj h).1⟩
  intro hword
  obtain ⟨c, hc, hlower⟩ := hhead hword
  obtain ⟨d, hd, hbegins⟩ := h.begins
  cases Option.some_inj.mp (hc.symm.trans hd)
  rcases hbegins with rfl | hdigit | hletter
  · exact absurd hlower (by decide)
  · rw [toLower_of_isDigit hdigit] at hlower
    rcases hlower with rfl | rfl <;> exact absurd hdigit (by decide)
  · rcases hlower with hlower | hlower <;> rw [hlower] at hletter <;> exact absurd hletter (by decide)

/-- What is written like a number is an integer, if it is one that fits, and any number otherwise. -/
theorem variableValue_of_denotes (h : IsPlainText value.toList) {x : Binary64}
    (hx : Binary64.Denotes value.toList x) :
    variableValue key value = match int64? value.toList with
      | some i => .integer i
      | none => .float x := by
  rw [variableValue_of_not_truth h.ascii (not_isTruthWord_of_denotes hx),
    (Binary64.ofText?_eq_some_iff h.noPoint h.noPlus).mpr hx]
  cases int64? value.toList <;> rfl

theorem variableValue_of_not_guessed (h : IsPlainText value.toList) (hx : ¬ Guessed value.toList) :
    variableValue key value =
      if key = "exclude" then
        .list ((value.toList.splitOn ',').map fun name => .text (String.ofList name))
      else .text value := by
  rw [Guessed, not_or] at hx
  have hfloat : Binary64.ofText? value.toList = none := by
    refine Option.eq_none_iff_forall_ne_some.mpr fun x hsome => hx.2 ⟨x, ?_⟩
    exact (Binary64.ofText?_eq_some_iff h.noPoint h.noPlus).mp hsome
  have hinteger : int64? value.toList = none := by
    refine Option.eq_none_iff_forall_ne_some.mpr fun i hsome => hx.2 ?_
    obtain ⟨negative, ds, hds, hvalue⟩ :=
      exists_of_integer? h.noPlus (Option.eq_some_of_filter_eq_some hsome)
    rw [hvalue]
    exact ⟨_, .digits hds⟩
  rw [variableValue_of_not_truth h.ascii hx.1, hfloat, hinteger]

/-- What is taken for a truth value or a number is no list of names. -/
theorem asTexts?_variableValue_of_guessed (key : String) (h : IsPlainText value.toList)
    (hguessed : Guessed value.toList) :
    (variableValue key value).asTexts? = none ∧ (variableValue key value).isTable = false := by
  rcases hguessed with htruth | ⟨x, hx⟩
  · rcases htruth with hword | hword
    · rw [variableValue_of_truth (b := true) h.ascii hword]
      exact ⟨rfl, rfl⟩
    · rw [variableValue_of_truth (b := false) h.ascii hword]
      exact ⟨rfl, rfl⟩
  · rw [variableValue_of_denotes h hx]
    cases int64? value.toList <;> exact ⟨rfl, rfl⟩

end Value

/-- No truth value and no number is written with a comma. -/
theorem comma_not_mem_of_guessed {cs : List Char} (h : Guessed cs) : ',' ∉ cs := by
  have hlower {word : List Char} {text : String} (heq : word.map Char.toLower = text.toList)
      (htext : ',' ∉ text.toList) : ',' ∉ word := by
    intro hmem
    refine htext (heq ▸ ?_)
    exact List.mem_map.mpr ⟨',', hmem, by decide⟩
  rcases h with htruth | ⟨x, hx⟩
  · exact htruth.elim (hlower · (by decide)) (hlower · (by decide))
  · cases hx with
    | digits hds => simp [mem_signed, hds.not_mem]
    | scientific hds hmark hpower =>
        rcases hmark with rfl | rfl <;> simp [mem_signed, hds.not_mem, hpower.not_mem]
    | infinite hword =>
        have hnone := hword.elim (hlower · (by decide)) (hlower · (by decide))
        simp [mem_signed, hnone]
    | nan hword =>
        have hnone := hlower hword (by decide)
        simp [mem_signed, hnone]

/-! ## Names between commas -/

theorem isPlainText_of_allIn {cs : List Char} (h : AllIn Selection.isWordChar cs) : IsPlainText cs where
  ascii c hc := Selection.toNat_lt_of_isWordChar (h c hc)
  noPoint hmem := absurd (h _ hmem) (by decide)
  noPlus hmem := absurd (h _ hmem) (by decide)

theorem allIn_of_isFacetName {name : String} (h : Settings.isFacetName name = true) :
    AllIn Selection.isWordChar name.toList := by
  simp only [Settings.isFacetName, Settings.isWordOf, Bool.and_eq_true, List.all_eq_true] at h
  exact fun c hc => (Settings.isNameChar_eq_isWordChar c).symm.trans (h.2 c hc)

section Names

variable {names : List String}

/-- A character other than the comma that is in no name is not in the list of names. -/
theorem not_mem_names {c : Char} (hc : c ≠ ',') (h : ∀ name ∈ names, c ∉ name.toList) :
    c ∉ (String.intercalate "," names).toList := by
  rw [String.toList_intercalate]
  refine not_mem_intercalate hc fun w hw => ?_
  obtain ⟨name, hname, rfl⟩ := List.mem_map.mp hw
  exact h name hname

theorem isPlainText_names (h : ∀ name ∈ names, Settings.isFacetName name = true) :
    IsPlainText (String.intercalate "," names).toList := by
  have hplain (name : String) (hname : name ∈ names) : IsPlainText name.toList :=
    isPlainText_of_allIn (allIn_of_isFacetName (h name hname))
  refine ⟨fun c hc => Decidable.byContradiction fun hlarge => ?_,
    not_mem_names (by decide) fun n hn => (hplain n hn).noPoint,
    not_mem_names (by decide) fun n hn => (hplain n hn).noPlus⟩
  have hcomma : c ≠ ',' := by
    rintro rfl
    exact hlarge (by decide)
  exact not_mem_names hcomma (fun n hn hmem => hlarge ((hplain n hn).ascii c hmem)) hc

/-- A list of names is written like something else iff it is one name that is. -/
theorem guessed_names_iff (hne : names ≠ []) :
    Guessed (String.intercalate "," names).toList ↔ ∃ name, names = [name] ∧ Guessed name.toList := by
  match names, hne with
  | [name], _ => simp
  | first :: second :: more, _ =>
      refine ⟨fun h => absurd ?_ (comma_not_mem_of_guessed h), ?_⟩
      · rw [String.toList_intercalate, List.map_cons, List.map_cons, List.intercalate_cons_cons]
        simp
      · rintro ⟨name, heq, -⟩
        exact nomatch heq

/-- Names are found again between their commas. -/
theorem splitOn_names (hne : names ≠ []) (h : ∀ name ∈ names, Settings.isFacetName name = true) :
    ((String.intercalate "," names).toList.splitOn ',').map String.ofList = names := by
  have hnone : ∀ w ∈ names.map String.toList, ',' ∉ w := by
    intro w hw
    obtain ⟨name, hname, rfl⟩ := List.mem_map.mp hw
    exact fun hmem => absurd (allIn_of_isFacetName (h name hname) _ hmem) (by decide)
  have hcomma : (",").toList = [','] := rfl
  rw [String.toList_intercalate, hcomma, List.splitOn_intercalate ',' hnone (by simpa using hne)]
  simp [Function.comp_def]

end Names

/-! ## Environments -/

/-- Of the variables of an environment one alone begins with the head and an underscore. -/
def OnlyVariable (env : List (String × String)) (head name value : String) : Prop :=
  ∃ before after, env = before ++ (head ++ "_" ++ name, value) :: after ∧
    ∀ v ∈ before ++ after,
      (Text.lower (head ++ "_")).toList.isPrefixOf (Text.lower v.1).toList = false

section Environment

variable {env : List (String × String)} {head name value key : String}

theorem readEnvironment_append (before after : List (String × String)) (head : String) :
    readEnvironment (before ++ after) head = readEnvironment before head ++ readEnvironment after head := by
  simp only [readEnvironment, List.filterMap_append]

/-- A variable behind a head gives its value to the rest of its name in small letters. -/
theorem readEnvironment_singleton (hname : Text.IsAscii name.toList)
    (hkey : name.toList.map Char.toLower = key.toList) :
    readEnvironment [(head ++ "_" ++ name, value)] head = [(key, variableValue key value)] := by
  have hletters := Text.toList_lower_append head hname
  rw [hkey] at hletters
  simp [readEnvironment, hletters]

/-- The one variable is all that the environment gives. -/
theorem readEnvironment_of_only (h : OnlyVariable env head name value) (hname : Text.IsAscii name.toList)
    (hkey : name.toList.map Char.toLower = key.toList) :
    readEnvironment env head = [(key, variableValue key value)] := by
  obtain ⟨before, after, rfl, hothers⟩ := h
  have hnone {vs : List (String × String)} (hvs : ∀ v ∈ vs, v ∈ before ++ after) :
      readEnvironment vs head = [] := by
    refine List.filterMap_eq_nil_iff.mpr fun v hv => ?_
    simp [hothers v (hvs v hv)]
  rw [← List.singleton_append, readEnvironment_append, readEnvironment_append,
    readEnvironment_singleton hname hkey, hnone fun v hv => List.mem_append_left _ hv,
    hnone fun v hv => List.mem_append_right _ hv, List.nil_append, List.append_nil]

end Environment

/-! ## Loading -/

section Loading

variable {store : FileStore} {env : List (String × String)} {calls : List Call}

/-- Sources are as they should be if they can be read: a file that is read is there, if it is required, and well
    formed, if it is there. -/
theorem regular_of_reads
    (hsources : ∀ l, .source l ∈ calls → ∃ ms, readLayer store env l = .ok ms ∧
      ∀ m ∈ ms, KeyPath.IsPlain m.1 ∧ (m.1 ∈ Settings.names → m.2.isTable = false))
    (hoverrides : ∀ key v, .override key v ∈ calls → key ∈ Settings.names ∧ v.HasDistinctKeys) :
    Regular store env calls := by
  have hgiven (l : Layer) (hl : .source l ∈ calls) : ∀ m ∈ given store env l,
      KeyPath.IsPlain m.1 ∧ (m.1 ∈ Settings.names → m.2.isTable = false) := by
    obtain ⟨ms, hread, hms⟩ := hsources l hl
    rwa [given, hread]
  refine ⟨fun p hp => ?_, fun p required bytes hp hbytes => ?_, fun l hl m hm => (hgiven l hl m hm).1,
    fun l hl m hm => (hgiven l hl m hm).2, hoverrides⟩
  · obtain ⟨ms, hread, -⟩ := hsources _ hp
    refine Option.isSome_iff_ne_none.mpr fun hnone => ?_
    simp [readLayer, readFile, hnone] at hread
  · obtain ⟨ms, hread, -⟩ := hsources _ hp
    refine Option.isSome_iff_ne_none.mpr fun hnone => ?_
    simp [readLayer, readFile, hbytes, hnone] at hread

/-- What is loaded if every deciding value suits its setting: the settings made of them, if they are valid. -/
theorem Regular.load_of_made (h : Regular store env calls) {t : Settings}
    (ht : t.MadeOf (deciding store env calls)) : ∃ ls, ofCalls calls = .ok ls ∧
      ls.load store env =
        (let s := { t with exclude := addMissing t.exclude (exclusions calls) }
         s.validate.map fun _ => s) := by
  obtain ⟨ls, ms, hls, htable, hextra, halike⟩ := h.table_alike
  refine ⟨ls, hls, ?_⟩
  have hmade : Settings.ofMembers ms = .ok t :=
    Settings.ofMembers_eq_ok_iff.mpr ((Settings.MadeOf.congr halike).mpr ht)
  rw [load, decided_of_table htable, hmade, hextra]
  rfl

/-- The names to exclude are looked at first, so a value that is no list of names decides the fault. -/
theorem Regular.load_of_no_list (h : Regular store env calls)
    (hlist : (deciding store env calls "exclude").asTexts? = none) :
    ∃ ls, ofCalls calls = .ok ls ∧ ls.load store env = .error (.unsuitable "exclude") := by
  obtain ⟨ls, ms, hls, htable, hextra, halike⟩ := h.table_alike
  refine ⟨ls, hls, ?_⟩
  have hfault : Settings.ofMembers ms = .error (.unsuitable "exclude") := by
    rcases Settings.field_bind_cases (Settings.ofMembers_eq ms).symm with ⟨names, hnames, -⟩ | ⟨-, hfault⟩
    · rw [(halike "exclude" (by decide)).texts, hlist] at hnames
      exact nomatch hnames
    · exact hfault
  rw [load, decided_of_table htable, hfault]
  rfl

end Loading

/-! ## One source alone -/

section Alone

variable {store : FileStore} {env : List (String × String)} {l : Layer} {key : String} {v : SettingValue}

/-- What decides the settings is the one value that the source gives, beside the defaults. -/
theorem deciding_of_given (hgiven : given store env l = [(key, v)]) (other : String) :
    deciding store env [.source l] other =
      if other = key then v else SettingValue.get other defaultMembers := by
  change (Option.or none (Option.or (List.findSome? _ [l]) _)).getD _ = _
  simp only [List.findSome?_cons, List.findSome?_nil, hgiven, List.reverse_singleton, lookup_singleton]
  by_cases hother : other = key <;> simp [hother, SettingValue.get]

theorem regular_of_readLayer (hread : readLayer store env l = .ok [(key, v)]) (hkey : KeyPath.IsPlain key)
    (htable : v.isTable = false) : Regular store env [.source l] := by
  refine regular_of_reads (fun l' hl' => ?_) fun key v hv => by simp at hv
  cases List.mem_singleton.mp hl'
  refine ⟨_, hread, fun m hm => ?_⟩
  cases List.mem_singleton.mp hm
  exact ⟨hkey, fun _ => htable⟩

end Alone

/-! ## Names to exclude in a variable -/

section Exclude

variable {names : List String} {env : List (String × String)} {head : String}

/-- Names that are not taken for anything else are found in the value as they were written. -/
theorem variableValue_names (hne : names ≠ [])
    (hnames : ∀ name ∈ names, Settings.isFacetName name = true)
    (hplain : ¬ ∃ name, names = [name] ∧ Guessed name.toList) :
    variableValue "exclude" (String.intercalate "," names) = .list (names.map SettingValue.text) := by
  rw [variableValue_of_not_guessed (isPlainText_names hnames) (mt (guessed_names_iff hne).mp hplain),
    if_pos rfl]
  exact congrArg SettingValue.list (List.map_map.symm.trans
    (congrArg (List.map SettingValue.text) (splitOn_names hne hnames)))

theorem asTexts?_texts (names : List String) :
    (SettingValue.list (names.map SettingValue.text)).asTexts? = some names := by
  rw [SettingValue.asTexts?, List.mapM_map]
  exact (List.mapM_pure (f := id)).trans (congrArg some names.map_id)

/-- **Names to exclude in a variable.** Let the one variable behind a head be `EXCLUDE`, let its value be one
    or more names of facets with commas between them, and let there be no other layer. If there is one name
    alone and it is written like a truth value or a number, the value is taken for that and loading fails, as
    it is no list. In all other cases the settings are loaded, and the excluded names are exactly those. -/
theorem exclude_by_variable (hne : names ≠ [])
    (hnames : ∀ name ∈ names, Settings.isFacetName name = true)
    (honly : OnlyVariable env head "EXCLUDE" (String.intercalate "," names)) (store : FileStore) :
    ((¬ ∃ name, names = [name] ∧ Guessed name.toList) →
      (defaults.add (.environment head)).load store env = .ok { Settings.default with exclude := names }) ∧
    ((∃ name, names = [name] ∧ Guessed name.toList) →
      (defaults.add (.environment head)).load store env = .error (.unsuitable "exclude")) := by
  have hread : readLayer store env (.environment head) =
      .ok [("exclude", variableValue "exclude" (String.intercalate "," names))] :=
    congrArg Except.ok (readEnvironment_of_only honly (by decide) (by decide))
  have hgiven : given store env (.environment head) =
      [("exclude", variableValue "exclude" (String.intercalate "," names))] := by rw [given, hread]
  constructor
  · intro hplain
    have hvalue := variableValue_names hne hnames hplain
    have hregular := regular_of_readLayer hread (by decide) (by rw [hvalue]; rfl)
    have hmade : ({ Settings.default with exclude := names } : Settings).MadeOf
        (deciding store env [.source (.environment head)]) := by
      constructor <;> rw [deciding_of_given hgiven]
      · rw [if_pos rfl, hvalue]
        exact asTexts?_texts names
      all_goals rfl
    have hvalid : ({ Settings.default with exclude := names } : Settings).validate = .ok () :=
      Settings.validate_eq_ok_iff.mpr ⟨hnames, by simp [Settings.default], by simp [Settings.default]⟩
    obtain ⟨ls, hls, hload⟩ := hregular.load_of_made hmade
    cases hls
    exact hload.trans (congrArg (Except.map _) hvalid)
  · intro hone
    obtain ⟨htexts, htable⟩ := asTexts?_variableValue_of_guessed "exclude" (isPlainText_names hnames)
      ((guessed_names_iff hne).mpr hone)
    have hregular := regular_of_readLayer hread (by decide) htable
    obtain ⟨ls, hls, hload⟩ := hregular.load_of_no_list (by
      rw [deciding_of_given hgiven, if_pos rfl]
      exact htexts)
    cases hls
    exact hload

/-- Two names that are both written like something else, beside a variable with another head. -/
theorem exclude_by_variable_two :
    (∀ name ∈ ["1", "true"], Settings.isFacetName name = true) ∧
    OnlyVariable [("HOME", "/w"), ("SELCONV_EXCLUDE", "1,true")] "SELCONV" "EXCLUDE" "1,true" ∧
    (defaults.add (.environment "SELCONV")).load (.atDirectory ["w"])
        [("HOME", "/w"), ("SELCONV_EXCLUDE", "1,true")] =
      .ok { Settings.default with exclude := ["1", "true"] } := by
  have hnames : ∀ name ∈ ["1", "true"], Settings.isFacetName name = true := by decide
  have honly : OnlyVariable [("HOME", "/w"), ("SELCONV_EXCLUDE", "1,true")] "SELCONV" "EXCLUDE" "1,true" :=
    ⟨[("HOME", "/w")], [], rfl, by decide +kernel⟩
  refine ⟨hnames, honly, ?_⟩
  exact (exclude_by_variable (by decide) hnames honly (.atDirectory ["w"])).1 (by simp)

/-- A single name that is written like a truth value is not excluded by its variable: loading fails. -/
theorem single_name_not_excluded :
    Settings.isFacetName "true" = true ∧
    OnlyVariable [("SELCONV_EXCLUDE", "true")] "SELCONV" "EXCLUDE" (String.intercalate "," ["true"]) ∧
    (defaults.add (.environment "SELCONV")).load (.atDirectory ["w"]) [("SELCONV_EXCLUDE", "true")] =
      .error (.unsuitable "exclude") :=
  ⟨by decide, ⟨[], [], rfl, by decide +kernel⟩, by rfl⟩

end Exclude

end Layers

end FacetQuery

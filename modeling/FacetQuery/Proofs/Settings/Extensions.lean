import FacetQuery.Proofs.Settings.Variables
import FacetQuery.Proofs.Toml.Assignment

/-!
# `FacetQuery.Proofs.Settings.Extensions` — an extension that is given in different ways

The extension of outputs and that of inputs can be given in a file, by a variable and as an override. A text
in a file and an override are taken as they are. A variable is not: what is written like a truth value or a
number is taken for one, and it is turned into a text again only when the settings are made. So an extension
keeps its spelling in a variable iff that is how the value is written out (`respell_ne_iff`); `007` becomes
`7`, and `1e3` becomes `1000`.

## Contents
- `ExtensionKey`: the two settings.
- `IsRespelled` and `ExtensionKey.respell_ne_iff`: which texts a variable does not keep.
- `Decides`: the step that has the last word on a setting.
- `MakeBut`: steps that make settings but for one.
- `extension_alone`: one step over the defaults.
- `extension_by_layer`: the step with the last word, and an extension that is another one in a variable.
-/

namespace FacetQuery

namespace Layers

open Selection (AllIn)

/-! ## The two settings -/

/-- The settings that hold an extension. -/
inductive ExtensionKey where
  | output
  | input
  deriving DecidableEq

namespace ExtensionKey

def name : ExtensionKey → String
  | output => "output_extension"
  | input => "input_extension"

/-- The name of the variable behind its head. -/
def variableName : ExtensionKey → String
  | output => "OUTPUT_EXTENSION"
  | input => "INPUT_EXTENSION"

/-- The settings with this extension. -/
def put : ExtensionKey → String → Settings → Settings
  | output, e, s => { s with outputExtension := some e }
  | input, e, s => { s with inputExtension := some e }

theorem name_ne (k : ExtensionKey) : k.name ≠ "exclude" := by cases k <;> decide

theorem name_mem (k : ExtensionKey) : k.name ∈ Settings.names := by cases k <;> decide

theorem isPlain_name (k : ExtensionKey) : KeyPath.IsPlain k.name := by cases k <;> decide

theorem isBareKey_name (k : ExtensionKey) : Toml.IsBareKey k.name.toList := by cases k <;> decide

theorem isAscii_variableName (k : ExtensionKey) : Text.IsAscii k.variableName.toList := by cases k <;> decide

theorem lower_variableName (k : ExtensionKey) : k.variableName.toList.map Char.toLower = k.name.toList := by
  cases k <;> decide

end ExtensionKey

/-! ## Texts that a variable does not keep -/

/-- Texts that are taken for a truth value or a number which is written in another way. -/
inductive IsRespelled : List Char → Prop
  /-- A word for a truth value with capital letters. -/
  | truth {cs} (h : IsTruthWord cs) (hcapital : cs ≠ "true".toList ∧ cs ≠ "false".toList) : IsRespelled cs
  /-- An integer that fits in 64 bits, with a zero in front, or zero with a minus sign. -/
  | zero {negative ds} (h : IsDigits ds) (hfits : fitsInt64 (signedValue negative (natOfDigits ds)) = true)
      (hzero : ds.head? = some '0') (hmore : ¬ (negative = false ∧ ds = ['0'])) :
      IsRespelled (signed negative ds)
  /-- An integer that does not fit, unless the number nearest to it is written with its digits. -/
  | large {negative ds} (h : IsDigits ds) (hfits : fitsInt64 (signedValue negative (natOfDigits ds)) = false)
      (hshown : (Binary64.ofDecimal ⟨negative, natOfDigits ds, 0⟩).shown.toList ≠ signed negative ds) :
      IsRespelled (signed negative ds)
  /-- Digits with an exponent. -/
  | scientific {negative ds mark small power} (h : IsDigits ds) (hmark : Decimal.IsMark mark)
      (hpower : IsDigits power) : IsRespelled (signed negative (ds ++ mark :: signed small power))
  /-- A word for what is infinite, unless it is `inf`. -/
  | infinite {negative word} (h : Binary64.IsInfinity word) (hlong : word ≠ "inf".toList) :
      IsRespelled (signed negative word)
  /-- A word for what is no number, unless it is `NaN`. -/
  | nan {negative word} (h : Binary64.IsNan word)
      (hother : ¬ (negative = false ∧ word = "NaN".toList)) : IsRespelled (signed negative word)

/-- The text that is made of the value of a variable. -/
def ExtensionKey.respell (k : ExtensionKey) (e : String) : String :=
  (variableValue k.name e).asText?.getD e

section Respelling

variable {k : ExtensionKey} {e : String} {negative : Bool} {ds word : List Char}

theorem respell_of_truth (h : Text.IsAscii e.toList) {b : Bool}
    (hword : e.toList.map Char.toLower = (if b then "true" else "false").toList) :
    k.respell e = if b then "true" else "false" := by
  rw [ExtensionKey.respell, variableValue_of_truth h hword]
  rfl

theorem respell_of_not_guessed (h : IsPlainText e.toList) (hplain : ¬ Guessed e.toList) :
    k.respell e = e := by
  rw [ExtensionKey.respell, variableValue_of_not_guessed h hplain, if_neg k.name_ne]
  rfl

/-- A number is written out as an integer, if it is one that fits, and as any number otherwise. -/
theorem respell_of_denotes (h : IsPlainText e.toList) {x : Binary64} (hx : Binary64.Denotes e.toList x) :
    k.respell e = match int64? e.toList with
      | some i => toString i
      | none => x.shown := by
  rw [ExtensionKey.respell, variableValue_of_denotes h hx]
  cases int64? e.toList <;> rfl

theorem int64?_signed (h : IsDigits ds) : int64? (signed negative ds) =
    if fitsInt64 (signedValue negative (natOfDigits ds)) then some (signedValue negative (natOfDigits ds))
    else none := by
  rw [int64?, integer?_signed h, Option.filter_some]

/-- Nothing but digits stands behind the sign of an integer. -/
theorem int64?_of_mem {cs : List Char} {c : Char} (hplus : '+' ∉ cs) (hmem : c ∈ cs) (hminus : c ≠ '-')
    (hdigit : c.isDigit = false) : int64? cs = none := by
  refine Option.eq_none_iff_forall_ne_some.mpr fun i hsome => ?_
  obtain ⟨negative, ds, hds, rfl⟩ := exists_of_integer? hplus (Option.eq_some_of_filter_eq_some hsome)
  rcases mem_signed.mp hmem with ⟨-, hsign⟩ | hmem
  · exact hminus hsign
  · exact hds.not_mem hdigit hmem

/-- A truth value is written out in small letters. -/
theorem respell_truth_iff (h : Text.IsAscii e.toList) (hword : IsTruthWord e.toList) :
    k.respell e = e ↔ e.toList = "true".toList ∨ e.toList = "false".toList := by
  obtain ⟨b, hb⟩ : ∃ b : Bool, e.toList.map Char.toLower = (if b then "true" else "false").toList :=
    hword.elim (⟨true, ·⟩) (⟨false, ·⟩)
  rw [respell_of_truth h hb]
  constructor
  · rintro heq
    cases b
    · exact .inr (congrArg String.toList heq.symm)
    · exact .inl (congrArg String.toList heq.symm)
  · rw [← String.toList_inj]
    rintro (heq | heq) <;>
      · rw [heq] at hb ⊢
        exact hb.symm.trans (by decide)

/-- A number with an exponent is written out without one. -/
theorem respell_scientific {mark : Char} {small : Bool} {power : List Char} (h : IsPlainText e.toList)
    (hds : IsDigits ds) (hmark : Decimal.IsMark mark) (hpower : IsDigits power)
    (he : e.toList = signed negative (ds ++ mark :: signed small power)) :
    (k.respell e).toList ≠ e.toList := by
  have hx : Binary64.Denotes e.toList
      (Binary64.ofDecimal ⟨negative, natOfDigits ds, signedValue small (natOfDigits power)⟩) :=
    he ▸ .scientific hds hmark hpower
  have hnone : int64? e.toList = none := by
    refine int64?_of_mem (c := mark) h.noPlus (by simp [he, mem_signed]) ?_ ?_ <;>
      · rcases hmark with rfl | rfl <;> decide
  rw [respell_of_denotes h hx, hnone, he]
  exact Binary64.shown_ne_scientific hds hmark _

theorem respell_special (h : IsPlainText e.toList) (hword : Binary64.IsInfinity word ∨ Binary64.IsNan word)
    {x : Binary64} (hx : Binary64.Denotes e.toList x) (he : e.toList = signed negative word) :
    k.respell e = x.shown := by
  obtain ⟨c, hc, hlower⟩ := Binary64.head?_special hword
  have hmem : c ∈ e.toList := he ▸ mem_signed.mpr (.inr (List.mem_of_mem_head? hc))
  have hnone : int64? e.toList = none := by
    refine int64?_of_mem h.noPlus hmem ?_ (Bool.eq_false_iff.mpr fun hdigit => ?_)
    · rintro rfl
      exact absurd hlower (by decide)
    · rw [toLower_of_isDigit hdigit] at hlower
      rcases hlower with rfl | rfl <;> exact absurd hdigit (by decide)
  rw [respell_of_denotes h hx, hnone]

theorem respell_infinite_iff (h : IsPlainText e.toList) (hword : Binary64.IsInfinity word)
    (he : e.toList = signed negative word) : (k.respell e).toList = e.toList ↔ word = "inf".toList := by
  have hx : Binary64.Denotes e.toList (.infinite negative) := he ▸ .infinite hword
  have hshown : (Binary64.infinite negative).shown.toList = signed negative "inf".toList := by
    cases negative <;> rfl
  rw [respell_special h (.inl hword) hx he, he, hshown]
  exact ⟨fun heq => (signed_inj heq).symm, fun heq => heq ▸ rfl⟩

theorem respell_nan_iff (h : IsPlainText e.toList) (hword : Binary64.IsNan word)
    (he : e.toList = signed negative word) :
    (k.respell e).toList = e.toList ↔ negative = false ∧ word = "NaN".toList := by
  have hx : Binary64.Denotes e.toList .nan := he ▸ .nan hword
  rw [respell_special h (.inr hword) hx he, he]
  cases negative with
  | false => exact ⟨fun heq => ⟨rfl, heq.symm⟩, fun heq => heq.2.symm⟩
  | true =>
      refine ⟨fun heq => ?_, fun heq => nomatch heq.1⟩
      exact absurd (List.cons.inj heq).1 (by decide)

theorem respell_digits_iff (h : IsPlainText e.toList) (hds : IsDigits ds)
    (he : e.toList = signed negative ds) : (k.respell e).toList = e.toList ↔
      if fitsInt64 (signedValue negative (natOfDigits ds)) then
        (ds.head? = some '0' → negative = false ∧ ds = ['0'])
      else (Binary64.ofDecimal ⟨negative, natOfDigits ds, 0⟩).shown.toList = signed negative ds := by
  have hx : Binary64.Denotes e.toList (Binary64.ofDecimal ⟨negative, natOfDigits ds, 0⟩) :=
    he ▸ .digits hds
  rw [respell_of_denotes h hx, he, int64?_signed hds]
  cases hfits : fitsInt64 (signedValue negative (natOfDigits ds)) with
  | true => exact toString_signedValue_eq_iff hds
  | false => exact Iff.rfl

/-- **A variable keeps the text that it is given** iff the text is not one of those that are written out in
    another way. -/
theorem ExtensionKey.respell_ne_iff (k : ExtensionKey) (h : IsPlainText e.toList) :
    k.respell e ≠ e ↔ IsRespelled e.toList := by
  rw [ne_eq, ← String.toList_inj]
  constructor
  · intro hne
    by_cases htruth : IsTruthWord e.toList
    · rw [String.toList_inj, respell_truth_iff h.ascii htruth, not_or] at hne
      exact .truth htruth hne
    by_cases hnumber : ∃ x, Binary64.Denotes e.toList x
    · obtain ⟨x, hx⟩ := hnumber
      generalize he : e.toList = cs at hx
      cases hx with
      | @digits negative ds hds =>
          rw [respell_digits_iff h hds he] at hne
          cases hfits : fitsInt64 (signedValue negative (natOfDigits ds)) with
          | true =>
              rw [if_pos hfits, Classical.not_imp] at hne
              exact .zero hds hfits hne.1 hne.2
          | false =>
              rw [if_neg (by simp [hfits])] at hne
              exact .large hds hfits hne
      | scientific hds hmark hpower => exact .scientific hds hmark hpower
      | infinite hword =>
          rw [respell_infinite_iff h hword he] at hne
          exact .infinite hword hne
      | nan hword =>
          rw [respell_nan_iff h hword he] at hne
          exact .nan hword hne
    · -- what is taken for nothing else is kept
      have hplain : ¬ Guessed e.toList := not_or.mpr ⟨htruth, hnumber⟩
      exact absurd (congrArg String.toList (respell_of_not_guessed h hplain)) hne
  · intro hrespelled
    generalize he : e.toList = cs at hrespelled
    cases hrespelled with
    | truth hword hcapital =>
        rw [← he] at hword hcapital
        rw [← he, String.toList_inj, respell_truth_iff h.ascii hword, not_or]
        exact hcapital
    | zero hds hfits hzero hmore =>
        rw [← he, respell_digits_iff h hds he, if_pos hfits, Classical.not_imp]
        exact ⟨hzero, hmore⟩
    | large hds hfits hshown =>
        rw [← he, respell_digits_iff h hds he, if_neg (by simp [hfits])]
        exact hshown
    | scientific hds hmark hpower =>
        rw [← he]
        exact respell_scientific h hds hmark hpower he
    | infinite hword hlong =>
        rw [← he, respell_infinite_iff h hword he]
        exact hlong
    | nan hword hother =>
        rw [← he, respell_nan_iff h hword he]
        exact hother

end Respelling

/-! ## The last word on a setting -/

/-- No step after this one gives the setting, and a source is not overridden either. -/
structure Decides (store : FileStore) (env : List (String × String)) (key : String) (before : List Call)
    (step : Call) (after : List Call) : Prop where
  overrides : ∀ v, .override key v ∉ after
  earlier : ∀ l, step = .source l → ∀ v, .override key v ∉ before
  later : ∀ l, step = .source l → ∀ l', .source l' ∈ after → ∀ m ∈ given store env l', m.1 ≠ key

section Decides

variable {store : FileStore} {env : List (String × String)} {key : String} {before after : List Call}

theorem lookup_reverse_eq_none {ms : List (String × SettingValue)} (h : ∀ m ∈ ms, m.1 ≠ key) :
    ms.reverse.lookup key = none :=
  List.lookup_eq_none_iff.mpr fun m hm => bne_iff_ne.mpr (h m (List.mem_reverse.mp hm)).symm

theorem lookup_overridden_eq_none {calls : List Call} (h : ∀ v, .override key v ∉ calls) :
    (overridden calls).reverse.lookup key = none :=
  lookup_reverse_eq_none fun m hm heq => h m.2 (heq ▸ mem_overridden hm)

theorem deciding_of_override {v : SettingValue}
    (h : Decides store env key before (.override key v) after) :
    deciding store env (before ++ .override key v :: after) key = v := by
  have hcut : overridden (before ++ .override key v :: after) =
      overridden before ++ [(key, v)] ++ overridden after := by
    simp [overridden, List.filterMap_append, Call.override?]
  rw [deciding, hcut]
  simp [List.lookup_append, lookup_overridden_eq_none h.overrides]

theorem deciding_of_source {l : Layer} {v : SettingValue}
    (h : Decides store env key before (.source l) after)
    (hv : (given store env l).reverse.lookup key = some v) :
    deciding store env (before ++ .source l :: after) key = v := by
  -- the source counts only if there is no override at all, wherever it stands
  have hnone : (overridden (before ++ .source l :: after)).reverse.lookup key = none := by
    refine lookup_overridden_eq_none fun w hw => ?_
    rcases List.mem_append.mp hw with hw | hw
    · exact h.earlier l rfl w hw
    · exact h.overrides w (List.mem_of_ne_of_mem (by simp) hw)
  have hcut : sources (before ++ .source l :: after) = sources before ++ [l] ++ sources after := by
    simp [sources, List.filterMap_append, Call.source?]
  have hlater :
      (sources after).reverse.findSome? (fun l' => (given store env l').reverse.lookup key) = none := by
    refine List.findSome?_eq_none_iff.mpr fun l' hl' => lookup_reverse_eq_none ?_
    exact h.later l rfl l' (mem_sources (List.mem_reverse.mp hl'))
  rw [deciding, hnone, hcut]
  simp [List.findSome?_append, hlater, hv]

end Decides

/-! ## Settings but for one -/

/-- If nothing were given for this one setting, the steps would make these settings, and they would be valid. -/
def MakeBut (store : FileStore) (env : List (String × String)) (key : String) (calls : List Call)
    (s : Settings) : Prop :=
  Regular store env calls ∧ s.validate = .ok () ∧ ∃ t : Settings,
    t.MadeOf (fun other => if other = key then .nil else deciding store env calls other) ∧
    s = { t with exclude := addMissing t.exclude (exclusions calls) }

section MakeBut

variable {store : FileStore} {env : List (String × String)} {calls : List Call} {k : ExtensionKey}
  {s : Settings}

theorem asOptionalText?_of_asText? {v : SettingValue} {x : String} (h : v.asText? = some x) :
    v.asOptionalText? = some (some x) := by
  cases v with
  | nil => exact nomatch h
  | bool | integer | float | text | list | table => exact congrArg (Option.map some) h

/-- The one setting is what its value is written out as. -/
theorem madeOf_put {value : String → SettingValue} {t : Settings} {x : String}
    (ht : t.MadeOf fun other => if other = k.name then .nil else value other)
    (hx : (value k.name).asText? = some x) : (k.put x t).MadeOf value := by
  have hx := asOptionalText?_of_asText? hx
  obtain ⟨exclude, output, input, workers, overwrite, format⟩ := ht
  cases k with
  | output => exact ⟨exclude, hx, input, workers, overwrite, format⟩
  | input => exact ⟨exclude, output, hx, workers, overwrite, format⟩

/-- Valid settings with another extension are valid iff the extension is. -/
theorem validate_put (h : s.validate = .ok ()) (x : String) :
    (k.put x s).validate = if Settings.isExtension x then .ok () else .error (.extension x) := by
  obtain ⟨hnames, houtput, hinput⟩ := Settings.validate_eq_ok_iff.mp h
  split
  · next hx =>
      have hgiven : ∀ e ∈ some x, Settings.isExtension e = true := by simpa using hx
      cases k with
      | output => exact Settings.validate_eq_ok_iff.mpr ⟨hnames, hgiven, hinput⟩
      | input => exact Settings.validate_eq_ok_iff.mpr ⟨hnames, houtput, hgiven⟩
  · next hx =>
      -- the names and the other extension are valid, so the first fault is the extension that was put
      have hexclude : (k.put x s).exclude.find? (!Settings.isFacetName ·) = none := by
        cases k <;> simpa [ExtensionKey.put] using hnames
      have hfirst : ((k.put x s).outputExtension.toList ++ (k.put x s).inputExtension.toList).find?
          (!Settings.isExtension ·) = some x := by
        cases k with
        | output => simp [ExtensionKey.put, hx]
        | input =>
            have hnone : s.outputExtension.toList.find? (!Settings.isExtension ·) = none := by
              simpa using houtput
            simp [ExtensionKey.put, List.find?_append, hnone, hx]
      rw [Settings.validate, hexclude, hfirst]

/-- What is loaded, with the one setting. -/
theorem MakeBut.load (h : MakeBut store env k.name calls s) {ls : Layers} (hls : ofCalls calls = .ok ls)
    {x : String} (hx : (deciding store env calls k.name).asText? = some x) :
    ls.load store env = if Settings.isExtension x then .ok (k.put x s) else .error (.extension x) := by
  obtain ⟨hregular, hvalid, t, ht, rfl⟩ := h
  obtain ⟨ls, hls', hload⟩ := hregular.load_of_made (madeOf_put ht hx)
  cases hls.symm.trans hls'
  have hput : ({ k.put x t with exclude := addMissing (k.put x t).exclude (exclusions calls) } : Settings) =
      k.put x { t with exclude := addMissing t.exclude (exclusions calls) } := by cases k <;> rfl
  simp only [hload, hput, validate_put hvalid]
  split <;> rfl

end MakeBut

/-! ## Ways to give an extension -/

/-- A step that gives the text itself. -/
inductive GivesText (store : FileStore) (k : ExtensionKey) (e : String) : Call → Prop
  /-- A file with one line, in which the text stands between quotes. -/
  | line {p required} (q : Toml.Quotes)
      (hbytes : fileBytes? store p = some (String.ofList (Toml.assignment k.name q e)).toUTF8) :
      GivesText store k e (.source (.file p required))
  /-- Any file that is read as a document with the text under the name of the setting. -/
  | document {p required ms} (hread : readFile store p required = .ok ms)
      (hmember : ms.reverse.lookup k.name = some (.text e)) :
      GivesText store k e (.source (.file p required))
  | override : GivesText store k e (.override k.name (.text e))

/-- The environment has a variable behind the head, and no later one with the same small letters. -/
def HasVariable (env : List (String × String)) (head name value : String) : Prop :=
  ∃ before after, env = before ++ (head ++ "_" ++ name, value) :: after ∧
    ∀ v ∈ after, Text.lower v.1 ≠ Text.lower (head ++ "_" ++ name)

section Ways

variable {k : ExtensionKey} {e : String}

theorem allIn_of_isExtension (h : Settings.isExtension e = true) : AllIn Toml.isBareKeyChar e.toList := by
  simp only [Settings.isExtension, Settings.isWordOf, Bool.and_eq_true, List.all_eq_true] at h
  exact h.2

theorem isWordChar_of_isBareKeyChar {c : Char} (h : Toml.isBareKeyChar c = true) :
    Selection.isWordChar c = true := by
  rw [Selection.isWordChar, Bool.or_eq_true]
  exact .inl h

theorem isPlainText_of_isExtension (h : Settings.isExtension e = true) : IsPlainText e.toList :=
  isPlainText_of_allIn fun c hc => isWordChar_of_isBareKeyChar (allIn_of_isExtension h c hc)

theorem isAscii_assignment (h : Text.IsAscii e.toList) (q : Toml.Quotes) :
    Text.IsAscii (Toml.assignment k.name q e) := by
  have hname : Text.IsAscii k.name.toList := by cases k <;> decide
  have hmark : Text.IsAscii q.mark := by cases q <;> decide
  intro c hc
  simp only [Toml.assignment, Toml.quoted, List.mem_append] at hc
  rcases hc with ((hc | hc) | (hc | hc) | hc) | hc
  · exact hname c hc
  · exact (by decide : Text.IsAscii [' ', '=', ' ']) c hc
  · exact hmark c hc
  · exact h c hc
  · exact hmark c hc
  · exact (by decide : Text.IsAscii ['\n']) c hc

/-- The file with the line is read as the one member. -/
theorem readFile_line {store : FileStore} {p : Path} {q : Toml.Quotes} (h : Settings.isExtension e = true)
    (hbytes : fileBytes? store p = some (String.ofList (Toml.assignment k.name q e)).toUTF8)
    (required : Bool) : readFile store p required = .ok [(k.name, .text e)] := by
  have hplain : AllIn Toml.isPlainChar e.toList := fun c hc =>
    Toml.isPlainChar_of_isBareKeyChar (allIn_of_isExtension h c hc)
  have hascii := isAscii_assignment (k := k) (isPlainText_of_isExtension h).ascii q
  have hline := Text.decodeLossy_of_ascii (s := String.ofList (Toml.assignment k.name q e))
    (by rwa [String.toList_ofList])
  rw [String.toList_ofList] at hline
  rw [readFile, hbytes]
  simp only [hline, Toml.parse?_assignment q k.isBareKey_name hplain]

/-- What the environment gives for the rest of the name of a variable is the value of the last variable. -/
theorem lookup_variable {env : List (String × String)} {head name value key : String}
    (h : HasVariable env head name value) (hname : Text.IsAscii name.toList)
    (hkey : name.toList.map Char.toLower = key.toList) :
    (readEnvironment env head).reverse.lookup key = some (variableValue key value) := by
  obtain ⟨before, after, rfl, hlater⟩ := h
  have hletters := Text.toList_lower_append head hname
  have hnone : (readEnvironment after head).reverse.lookup key = none := by
    -- a later variable with this key would have the same small letters
    refine lookup_reverse_eq_none fun m hm heq => ?_
    obtain ⟨v, hv, hgiven⟩ := List.mem_filterMap.mp hm
    simp only [Option.ite_none_right_eq_some, Option.some.injEq] at hgiven
    obtain ⟨hstarts, rfl⟩ := hgiven
    refine hlater v hv (String.toList_inj.mp ?_)
    obtain ⟨rest, hrest⟩ := List.isPrefixOf_iff_prefix.mp hstarts
    have hdrop : rest = key.toList := by
      rw [← heq, ← hrest]
      simp
    rw [hletters, hkey, ← hrest, hdrop]
  rw [← List.singleton_append, readEnvironment_append, readEnvironment_append,
    readEnvironment_singleton hname hkey]
  simp [List.lookup_append, hnone]

/-- An extension in a variable is never taken for a list or a table. -/
theorem asText?_variableValue (k : ExtensionKey) (e : String) :
    (variableValue k.name e).asText? = some (k.respell e) := by
  have htext : ∃ x, (variableValue k.name e).asText? = some x := by
    rw [variableValue]
    simp only [if_neg k.name_ne]
    repeat' split
    all_goals exact ⟨_, rfl⟩
  obtain ⟨x, hx⟩ := htext
  rw [ExtensionKey.respell, hx]
  rfl

/-- A file that gives the text has it under the name of the setting. -/
theorem GivesText.lookup_given {store : FileStore} {env : List (String × String)} {l : Layer}
    (he : Settings.isExtension e = true) (h : GivesText store k e (.source l)) :
    (given store env l).reverse.lookup k.name = some (.text e) := by
  cases h with
  | line q hbytes => simp [given, readLayer, readFile_line he hbytes]
  | document hread hmember => simpa [given, readLayer, hread] using hmember

end Ways

/-! ## One step alone -/

section Alone

variable {store : FileStore} {env : List (String × String)} {l : Layer} {k : ExtensionKey} {e : String}

/-- A step that gives nothing else makes the defaults but for the one setting. -/
theorem makeBut_alone {step : Call} (hregular : Regular store env [step]) (hnone : exclusions [step] = [])
    (hothers : ∀ other, other ≠ k.name →
      deciding store env [step] other = SettingValue.get other defaultMembers) :
    MakeBut store env k.name [step] .default := by
  refine ⟨hregular, rfl, .default, ?_, by rw [hnone]; rfl⟩
  have hvalue (other : String) : (if other = k.name then .nil else deciding store env [step] other) =
      if other = k.name then .nil else SettingValue.get other defaultMembers := by
    split
    · rfl
    · next hother => exact hothers other hother
  constructor <;> simp only [hvalue] <;> cases k <;> rfl

theorem makeBut_of_readLayer {v : SettingValue} (hread : readLayer store env l = .ok [(k.name, v)])
    (htable : v.isTable = false) : MakeBut store env k.name [.source l] .default :=
  makeBut_alone (regular_of_readLayer hread k.isPlain_name htable) rfl fun other hother => by
    rw [deciding_of_given (by rw [given, hread]), if_neg hother]

/-- A source that gives the extension alone, over the defaults. -/
theorem load_of_readLayer {v : SettingValue} {x : String}
    (hread : readLayer store env l = .ok [(k.name, v)]) (hx : v.asText? = some x) :
    (defaults.add l).load store env =
      if Settings.isExtension x then .ok (k.put x .default) else .error (.extension x) := by
  have htable : v.isTable = false := by
    cases v with
    | table ms => exact nomatch hx
    | nil | bool | integer | float | text | list => rfl
  have hdeciding : deciding store env [.source l] k.name = v := by
    rw [deciding_of_given (by rw [given, hread]), if_pos rfl]
  exact (makeBut_of_readLayer hread htable).load rfl (hdeciding ▸ hx)

theorem load_of_override (store : FileStore) (env : List (String × String)) (k : ExtensionKey) (e : String) :
    ∃ ls, defaults.override k.name (.text e) = .ok ls ∧ ls.load store env =
      if Settings.isExtension e then .ok (k.put e .default) else .error (.extension e) := by
  have hregular : Regular store env [.override k.name (.text e)] := by
    refine ⟨by simp, by simp, by simp, by simp, fun key v hv => ?_⟩
    cases List.mem_singleton.mp hv
    exact ⟨k.name_mem, List.nodup_nil⟩
  have hdeciding (other : String) : deciding store env [.override k.name (.text e)] other =
      if other = k.name then .text e else SettingValue.get other defaultMembers := by
    change (Option.or ([(k.name, SettingValue.text e)].reverse.lookup other) _).getD _ = _
    rw [List.reverse_singleton, lookup_singleton]
    split <;> rfl
  have hrest : MakeBut store env k.name [.override k.name (.text e)] .default :=
    makeBut_alone hregular rfl fun other hother => by rw [hdeciding, if_neg hother]
  obtain ⟨ls, -, hls, -⟩ := hregular.table_alike
  have hcall : ofCalls [.override k.name (.text e)] = defaults.override k.name (.text e) := by
    simp [ofCalls, Call.apply]
  refine ⟨ls, hcall.symm.trans hls, hrest.load hls ?_⟩
  rw [hdeciding, if_pos rfl]
  rfl

/-- An extension that is given in one way only is the text itself if a file or an override gives it, and what
    its value is written out as if a variable does. -/
theorem extension_alone (he : Settings.isExtension e = true) (store : FileStore)
    (env : List (String × String)) (k : ExtensionKey) :
    (∀ p required q, fileBytes? store p = some (String.ofList (Toml.assignment k.name q e)).toUTF8 →
      (defaults.add (.file p required)).load store env = .ok (k.put e .default)) ∧
    (∃ ls, defaults.override k.name (.text e) = .ok ls ∧ ls.load store env = .ok (k.put e .default)) ∧
    ∀ head, OnlyVariable env head k.variableName e →
      (defaults.add (.environment head)).load store env =
        if Settings.isExtension (k.respell e) then .ok (k.put (k.respell e) .default)
        else .error (.extension (k.respell e)) := by
  refine ⟨fun p required q hbytes => ?_, ?_, fun head honly => ?_⟩
  · have hread : readLayer store env (.file p required) = .ok [(k.name, .text e)] :=
      readFile_line he hbytes required
    rw [load_of_readLayer hread rfl, if_pos he]
  · obtain ⟨ls, hls, hload⟩ := load_of_override store env k e
    exact ⟨ls, hls, by rw [hload, if_pos he]⟩
  · have hgiven := readEnvironment_of_only honly k.isAscii_variableName k.lower_variableName
    exact load_of_readLayer (congrArg Except.ok hgiven) (asText?_variableValue k e)

end Alone

section LastWord

variable {store : FileStore} {env : List (String × String)} {before after : List Call} {step : Call}
  {k : ExtensionKey} {e : String} {s : Settings}

/-- The text of the step decides. -/
theorem GivesText.deciding_eq (he : Settings.isExtension e = true) (h : GivesText store k e step)
    (hdecides : Decides store env k.name before step after) :
    deciding store env (before ++ step :: after) k.name = .text e := by
  cases hstep : step with
  | source l =>
      rw [hstep] at h hdecides
      exact deciding_of_source hdecides (h.lookup_given he)
  | override key v =>
      rw [hstep] at h hdecides
      cases h
      exact deciding_of_override hdecides
  | exclude names =>
      rw [hstep] at h
      exact nomatch h

/-- **An extension in any layer.** Take steps that make valid settings but for one extension, and let one of
    them have the last word on it. If this step gives a text that can be an extension in a file or as an
    override, the settings are loaded, and the extension is this text, character for character. If it is given
    by a variable, the extension is the text that its value is written out as, and if that is no extension the
    settings are not valid; it is another text iff the text is taken for a truth value or a number that is
    written in another way. -/
theorem extension_by_layer (he : Settings.isExtension e = true)
    (hrest : MakeBut store env k.name (before ++ step :: after) s)
    (hdecides : Decides store env k.name before step after) :
    ∃ ls, ofCalls (before ++ step :: after) = .ok ls ∧
      (GivesText store k e step → ls.load store env = .ok (k.put e s)) ∧
      (∀ head, step = .source (.environment head) → HasVariable env head k.variableName e →
        ls.load store env =
          if Settings.isExtension (k.respell e) then .ok (k.put (k.respell e) s)
          else .error (.extension (k.respell e))) ∧
      (k.respell e ≠ e ↔ IsRespelled e.toList) := by
  obtain ⟨ls, -, hls, -⟩ := hrest.1.table_alike
  refine ⟨ls, hls, fun hgives => ?_, ?_, k.respell_ne_iff (isPlainText_of_isExtension he)⟩
  · rw [hrest.load hls (congrArg SettingValue.asText? (hgives.deciding_eq he hdecides)), if_pos he]
  · rintro head rfl hvariable
    have hlast := lookup_variable hvariable k.isAscii_variableName k.lower_variableName
    have hvalue := deciding_of_source hdecides hlast
    exact hrest.load hls ((congrArg SettingValue.asText? hvalue).trans (asText?_variableValue k e))

end LastWord

/-- A settings file that gives an extension of digits, above a variable that gives another. -/
def digitsStore : FileStore :=
  ⟨["w"], [(["w"], .directory), (["w", "s.toml"], .file "output_extension = '007'\n".toUTF8)]⟩

def digitsVariables : List (String × String) :=
  [("SELCONV_WORKERS", "3"), ("SELCONV_OUTPUT_EXTENSION", "sel")]

/-- In a file the zeros in front of `007` are kept. -/
theorem extension_by_layer_digits :
    Settings.isExtension "007" = true ∧
    MakeBut digitsStore digitsVariables "output_extension"
      [.source (.environment "SELCONV"), .source (.file ⟨"s.toml"⟩ true)]
      { Settings.default with workers := 3 } ∧
    Decides digitsStore digitsVariables "output_extension" [.source (.environment "SELCONV")]
      (.source (.file ⟨"s.toml"⟩ true)) [] ∧
    ∃ ls, ofCalls [.source (.environment "SELCONV"), .source (.file ⟨"s.toml"⟩ true)] = .ok ls ∧
      ls.load digitsStore digitsVariables =
        .ok { Settings.default with outputExtension := some "007", workers := 3 } := by
  have he : Settings.isExtension "007" = true := by decide
  have hbytes : fileBytes? digitsStore ⟨"s.toml"⟩ =
      some (String.ofList (Toml.assignment ExtensionKey.output.name .literal "007")).toUTF8 := by rfl
  have hread : readLayer digitsStore digitsVariables (.file ⟨"s.toml"⟩ true) =
      .ok [(ExtensionKey.output.name, .text "007")] := readFile_line he hbytes true
  have hrest : MakeBut digitsStore digitsVariables "output_extension"
      [.source (.environment "SELCONV"), .source (.file ⟨"s.toml"⟩ true)]
      { Settings.default with workers := 3 } := by
    refine ⟨?_, by rfl, { Settings.default with workers := 3 }, ?_, rfl⟩
    · refine regular_of_reads (fun l hl => ?_) fun key v ho => by simp at ho
      have hsource : l = .environment "SELCONV" ∨ l = .file ⟨"s.toml"⟩ true := by simpa using hl
      rcases hsource with rfl | rfl
      · exact ⟨[("workers", .integer 3), ("output_extension", .text "sel")], by rfl, by decide⟩
      · exact ⟨_, hread, by decide⟩
    · constructor <;> decide +kernel
  have hdecides : Decides digitsStore digitsVariables "output_extension" [.source (.environment "SELCONV")]
      (.source (.file ⟨"s.toml"⟩ true)) [] :=
    ⟨by simp, by simp, by simp⟩
  obtain ⟨ls, hls, htext, -, -⟩ := extension_by_layer (k := .output) he hrest hdecides
  exact ⟨he, hrest, hdecides, ls, hls, htext (.line .literal hbytes)⟩

/-- In a variable the zeros in front of `007` are lost. -/
theorem variable_drops_zeros :
    Settings.isExtension "007" = true ∧
    OnlyVariable [("SELCONV_OUTPUT_EXTENSION", "007")] "SELCONV" "OUTPUT_EXTENSION" "007" ∧
    (defaults.add (.environment "SELCONV")).load (.atDirectory ["w"]) [("SELCONV_OUTPUT_EXTENSION", "007")] =
      .ok { Settings.default with outputExtension := some "7" } :=
  ⟨by decide, ⟨[], [], rfl, by decide +kernel⟩, by rfl⟩

end Layers

end FacetQuery

import FacetQuery.CommandLine.Run
import FacetQuery.Proofs.Number.Numerals
import FacetQuery.Proofs.Settings.Layering

/-!
# `FacetQuery.Proofs.CommandLine.Workers` — the number of workers that a call asks for

A number in the arguments is put over whatever the settings file and the environment give for workers, also
over a value that would suit no number. So it decides, and they have no say.

On its way it passes a signed word (`CommandLine.signedWord`), although both the option and the setting are
unsigned. In the lower half of the range that changes nothing. A number of the upper half becomes negative, and a
negative number is no count, so every call for such a number fails, with a fault that names the setting.

## Contents
- `Layers.SameBut`, `Layers.GivesSameBut`: tables and layers that differ in one setting at most.
- `Options.CountFits` and `Options.ofArguments_workers`: the numbers that arguments can ask for are those that a
  word holds.
- `signedWord_of_fits`, `signedWord_neg`: a word in the two halves of its range.
- `Options.calls`: the layers of a call as steps; `Options.get_workers`: the number is in the table.
- `Options.OthersMake`, `Options.workers_as_given`, and the least number that is lost.
-/

namespace FacetQuery

namespace Layers

/-! ## What layers give for other settings -/

/-- The setting that a key of a layer leads into. -/
def rootOf (key : String) : String := ((KeyPath.ofString? key).getD (.ofName key)).root

/-- Two tables hold the same but for one setting. -/
def SameBut (key : String) (ms ns : List (String × SettingValue)) : Prop :=
  ∀ other ≠ key, ms.lookup other = ns.lookup other

/-- The members of a layer that lead into other settings. -/
def othersOf (key : String) (layer : List (String × SettingValue)) : List (String × SettingValue) :=
  layer.filter fun m => rootOf m.1 ≠ key

/-- In both surroundings the layer can be read, and gives the same for all other settings. -/
def GivesSameBut (key : String) (store store' : FileStore) (env env' : List (String × String))
    (l : Layer) : Prop :=
  ∃ ms ns, readLayer store env l = .ok ms ∧ readLayer store' env' l = .ok ns ∧
    othersOf key ms = othersOf key ns

section SameBut

variable {key : String} {ms ns : List (String × SettingValue)} {p : KeyPath} {v : SettingValue}

theorem SameBut.refl (key : String) (ms : List (String × SettingValue)) : SameBut key ms ms :=
  fun _ _ => rfl

theorem SameBut.symm (h : SameBut key ms ns) : SameBut key ns ms :=
  fun other hother => (h other hother).symm

theorem SameBut.trans {ks : List (String × SettingValue)} (h : SameBut key ms ns)
    (h' : SameBut key ns ks) : SameBut key ms ks :=
  fun other hother => (h other hother).trans (h' other hother)

/-- A place is changed alike in both tables if it is in another setting, and else it is not looked at. -/
theorem SameBut.put (h : SameBut key ms ns) (p : KeyPath) (v : SettingValue) :
    SameBut key (p.put v ms) (p.put v ns) := by
  intro other hother
  simp only [KeyPath.put, SettingValue.lookup_put]
  by_cases hroot : other = p.root
  · have hget : SettingValue.get p.root ms = SettingValue.get p.root ns := by
      rw [SettingValue.get, SettingValue.get, h p.root (hroot ▸ hother)]
    rw [if_pos hroot, if_pos hroot, hget]
  · rw [if_neg hroot, if_neg hroot, h other hother]

theorem sameBut_put (hroot : p.root = key) : SameBut key (p.put v ms) ms := by
  intro other hother
  rw [KeyPath.put, SettingValue.lookup_put, if_neg (hroot ▸ hother)]

theorem SameBut.putLayer_othersOf (h : SameBut key ms ns) (layer : List (String × SettingValue)) :
    SameBut key (putLayer ms layer) (putLayer ns (othersOf key layer)) := by
  induction layer generalizing ms ns with
  | nil => exact h
  | cons m layer ih =>
      by_cases hroot : rootOf m.1 = key
      · -- this member changes the first table only, and there only the one setting
        have hskip : othersOf key (m :: layer) = othersOf key layer :=
          List.filter_cons_of_neg (by simpa using hroot)
        rw [hskip]
        exact ih ((sameBut_put hroot).trans h)
      · have hkeep : othersOf key (m :: layer) = m :: othersOf key layer :=
          List.filter_cons_of_pos (by simpa using hroot)
        rw [hkeep]
        exact ih (h.put _ _)

/-- Layers that give the same for all other settings make the same of them. -/
theorem SameBut.putLayer (h : SameBut key ms ns) {layer layer' : List (String × SettingValue)}
    (hothers : othersOf key layer = othersOf key layer') :
    SameBut key (putLayer ms layer) (putLayer ns layer') :=
  (h.putLayer_othersOf layer).trans (hothers ▸ ((SameBut.refl key ns).putLayer_othersOf layer').symm)

theorem SameBut.putOverrides (h : SameBut key ms ns) (os : List (KeyPath × SettingValue)) :
    SameBut key (os.foldl (fun ms (p, v) => p.put v ms) ms) (os.foldl (fun ms (p, v) => p.put v ms) ns) := by
  induction os generalizing ms ns with
  | nil => exact h
  | cons o os ih => exact ih (h.put o.1 o.2)

end SameBut

section Surroundings

variable {key : String} {store store' : FileStore} {env env' : List (String × String)}

theorem SameBut.putLayers {ls : List Layer} {ms ns : List (String × SettingValue)}
    (hms : SameBut key ms ns) (h : ∀ l ∈ ls, GivesSameBut key store store' env env' l) :
    ∃ given given', ls.mapM (readLayer store env) = .ok given ∧
      ls.mapM (readLayer store' env') = .ok given' ∧
      SameBut key (given.foldl Layers.putLayer ms) (given'.foldl Layers.putLayer ns) := by
  induction ls generalizing ms ns with
  | nil => exact ⟨[], [], rfl, rfl, hms⟩
  | cons l ls ih =>
      obtain ⟨⟨layer, layer', hread, hread', hothers⟩, hrest⟩ := List.forall_mem_cons.mp h
      obtain ⟨given, given', hgiven, hgiven', hsame⟩ := ih (hms.putLayer hothers) hrest
      refine ⟨layer :: given, layer' :: given', ?_, ?_, hsame⟩
      · rw [List.mapM_cons, hread, hgiven]
        rfl
      · rw [List.mapM_cons, hread', hgiven']
        rfl

/-- In surroundings that give the same for all other settings, tables hold the same but for the one. -/
theorem exists_tables_of_givesSameBut {ls : Layers}
    (h : ∀ l ∈ ls.layers, GivesSameBut key store store' env env' l) :
    ∃ ms ns, ls.table store env = .ok ms ∧ ls.table store' env' = .ok ns ∧ SameBut key ms ns := by
  obtain ⟨given, given', hgiven, hgiven', hsame⟩ := (SameBut.refl key defaultMembers).putLayers h
  refine ⟨_, _, ?_, ?_, hsame.putOverrides ls.overrides⟩
  · rw [table, hgiven]
    rfl
  · rw [table, hgiven']
    rfl

end Surroundings

end Layers

namespace CommandLine

/-! ## Numbers in arguments -/

/-- The number of workers, if one is asked for, is held by a word. -/
def Options.CountFits (o : Options) : Prop := ∀ n ∈ o.workers, fitsUInt64 n = true

/-- The options that were read, whether a value is still to come or not. -/
def Pending.options : Pending → Options
  | done o => o
  | needs o _ => o

section Reading

/-- A step that succeeds has a first part that does. -/
theorem eq_ok_of_bind {ε α β : Type} {x : Except ε α} {next : α → Except ε β} {b : β}
    (h : (x >>= next) = .ok b) : ∃ a, x = .ok a ∧ next a = .ok b := by
  cases x with
  | error e => exact nomatch h
  | ok a => exact ⟨a, rfl, h⟩

variable {o p : Options}

theorem Options.CountFits.applyFlag (ho : o.CountFits) {f : Flag} (h : o.applyFlag f = .ok p) :
    p.CountFits := by
  cases f with
  | noOverwrite | stdout | quiet =>
      simp only [Options.applyFlag] at h
      split at h
      · exact nomatch h
      · cases h
        exact ho
  | verbose =>
      cases h
      exact ho
  | version | help => exact nomatch h

/-- Only one option gives a number of workers, and it takes none that is too large. -/
theorem Options.CountFits.applyChoice (ho : o.CountFits) {c : Choice} {value : String}
    (h : o.applyChoice c value = .ok p) : p.CountFits := by
  cases c with
  | exclude =>
      cases h
      exact ho
  | config =>
      simp only [Options.applyChoice] at h
      split at h
      · exact nomatch h
      · split at h
        · exact nomatch h
        · cases h
          exact ho
  | «extension» =>
      simp only [Options.applyChoice] at h
      split at h
      · exact nomatch h
      · cases h
        exact ho
  | workers =>
      simp only [Options.applyChoice] at h
      split at h
      · exact nomatch h
      · split at h
        · next n hn =>
            cases h
            intro m hm
            cases hm
            exact (Option.filter_eq_some_iff.mp hn).2
        · exact nomatch h
  | format =>
      simp only [Options.applyChoice] at h
      split at h
      · exact nomatch h
      · split at h
        · cases h
          exact ho
        · exact nomatch h

theorem Options.CountFits.addPath (ho : o.CountFits) {path : String} (h : o.addPath path = .ok p) :
    p.CountFits := by
  unfold Options.addPath at h
  split at h
  · exact nomatch h
  · cases h
    exact ho

theorem Options.CountFits.readLetters (ho : o.CountFits) {cs : List Char} {pending : Pending}
    (h : readLetters o cs = .ok pending) : pending.options.CountFits := by
  induction cs generalizing o with
  | nil =>
      cases h
      exact ho
  | cons c cs ih =>
      unfold CommandLine.readLetters at h
      split at h
      · next f hf =>
          obtain ⟨p, hflag, hrest⟩ := eq_ok_of_bind h
          exact ih (ho.applyFlag hflag) hrest
      · split at h
        · cases h
          exact ho
        · obtain ⟨p, hchoice, hrest⟩ := eq_ok_of_bind h
          cases hrest
          exact ho.applyChoice hchoice
        · exact nomatch h

theorem Options.CountFits.readLong (ho : o.CountFits) {body : List Char} {pending : Pending}
    (h : readLong o body = .ok pending) : pending.options.CountFits := by
  simp only [CommandLine.readLong] at h
  split at h
  · obtain ⟨p, hflag, hrest⟩ := eq_ok_of_bind h
    cases hrest
    exact ho.applyFlag hflag
  · exact nomatch h
  · obtain ⟨p, hchoice, hrest⟩ := eq_ok_of_bind h
    cases hrest
    exact ho.applyChoice hchoice
  · cases h
    exact ho
  · exact nomatch h

theorem Options.CountFits.readArgument (ho : o.CountFits) {argument : String} {pending : Pending}
    (h : readArgument o argument = .ok pending) : pending.options.CountFits := by
  unfold CommandLine.readArgument at h
  split at h
  · exact ho.readLong h
  · exact ho.readLetters h
  · obtain ⟨p, hpath, hrest⟩ := eq_ok_of_bind h
    cases hrest
    exact ho.addPath hpath

theorem Options.CountFits.addPaths (ho : o.CountFits) {paths : List String}
    (h : paths.foldlM Options.addPath o = .ok p) : p.CountFits := by
  induction paths generalizing o with
  | nil =>
      cases h
      exact ho
  | cons path paths ih =>
      obtain ⟨q, hpath, hrest⟩ := eq_ok_of_bind ((List.foldlM_cons ..).symm.trans h)
      exact ih (ho.addPath hpath) hrest

/-- Whatever the arguments are, the number stays one that a word holds. -/
theorem Options.CountFits.readArguments (ho : o.CountFits) {arguments : List String}
    (h : readArguments o arguments = .ok p) : p.CountFits := by
  -- an argument is read by itself, with the next one as its value, or as a path behind the dashes
  fun_induction CommandLine.readArguments o arguments with
  | case1 o =>
      cases h
      exact ho
  | case2 o rest => exact ho.addPaths h
  | case4 o a rest hdashes q hread ih => exact ih (ho.readArgument hread) h
  | case7 o a hdashes q c hread v rest hlooks r hchoice ih =>
      exact ih (Options.CountFits.applyChoice (ho.readArgument hread) hchoice) h
  | case3 | case5 | case6 | case8 => exact nomatch h

theorem Options.countFits_of_ofArguments {arguments : List String}
    (h : Options.ofArguments arguments = .ok p) : p.CountFits := by
  obtain ⟨q, hread, hrest⟩ := eq_ok_of_bind h
  have hstart : Options.start.CountFits := by
    intro n hn
    cases hn
  have hq : q.CountFits := hstart.readArguments hread
  split at hrest
  · exact nomatch hrest
  · split at hrest
    · exact nomatch hrest
    · cases hrest
      exact hq

/-- The digits of a number are read back. -/
theorem uint64?_toString {n : Nat} (h : fitsUInt64 n = true) : uint64? (toString n).toList = some n := by
  obtain ⟨d, ds, hds, hdigit⟩ := Json.natText_eq_cons n
  have hdigits : IsDigits (d :: ds) := hds ▸ ⟨by simp [hds], Json.allIn_natText n⟩
  have hnatural : natural? (d :: ds) = digits? (d :: ds) := by
    unfold natural?
    split
    · next heq =>
        cases heq
        exact nomatch hdigit
    · rfl
  show uint64? (Json.natText n) = some n
  rw [hds, uint64?, hnatural, hdigits.digits?, ← hds, Json.natOfDigits_natText, Option.filter_some, if_pos h]

theorem looksLikeOption_toString (n : Nat) : looksLikeOption (toString n) = false := by
  obtain ⟨d, ds, hds, hdigit⟩ := Json.natText_eq_cons n
  have hlist : (toString n).toList = d :: ds := hds
  unfold looksLikeOption
  rw [hlist]
  split
  · next heq =>
      cases heq
      exact nomatch hdigit
  · rfl

/-- What does not look like an option is a path, unless it is empty. -/
theorem readArgument_path {path : String} (hpath : path ≠ "") (hfree : looksLikeOption path = false) (o : Options) :
    readArgument o path = .ok (.done { o with paths := o.paths ++ [⟨path⟩] }) := by
  unfold looksLikeOption at hfree
  unfold readArgument
  split
  · next h => simp [h] at hfree
  · next h => simp [h] at hfree
  · rw [Options.addPath, if_neg (by simpa using hpath)]
    rfl

/-- Every number that a word holds can be asked for. -/
theorem Options.ofArguments_workers {n : Nat} (h : fitsUInt64 n = true) {path : String} (hpath : path ≠ "")
    (hfree : looksLikeOption path = false) :
    Options.ofArguments ["--workers", toString n, path] =
      .ok { Options.start with paths := [⟨path⟩], workers := some n } := by
  have hname : CommandLine.readArgument .start "--workers" = .ok (.needs .start .workers) := rfl
  have hchoice : Options.start.applyChoice .workers (toString n) =
      .ok { Options.start with workers := some n } := by
    simp only [Options.applyChoice, uint64?_toString h]
    rfl
  have hdashes : path ≠ "--" := by
    rintro rfl
    exact nomatch hfree
  rw [Options.ofArguments, CommandLine.readArguments, if_neg (by decide), hname]
  simp only [looksLikeOption_toString, hchoice, CommandLine.readArguments, if_neg hdashes,
    readArgument_path hpath hfree]
  rfl

end Reading

/-! ## Counts as signed words -/

section SignedWord

variable {n : Nat}

/-- In the lower half of the range a word is the same with and without a sign. -/
theorem signedWord_of_fits (h : fitsInt64 n = true) : signedWord n = n := by
  simp only [fitsInt64, Bool.and_eq_true, decide_eq_true_eq] at h
  unfold signedWord
  apply Int.bmod_eq_of_le <;> omega

/-- In the upper half the sign bit is set. -/
theorem signedWord_neg (hword : fitsUInt64 n = true) (h : fitsInt64 n = false) : signedWord n < 0 := by
  simp only [fitsUInt64, Bool.and_eq_true, decide_eq_true_eq] at hword
  simp only [fitsInt64, Bool.and_eq_false_iff, decide_eq_false_iff_not] at h
  -- the word less the whole range is in the range of signed words
  have hless : signedWord n = (n : Int) - 18446744073709551616 := by
    unfold signedWord
    rw [← Int.sub_bmod_right]
    apply Int.bmod_eq_of_le <;> omega
  omega

theorem asCount?_signedWord_of_fits (hword : fitsUInt64 n = true) (h : fitsInt64 n = true) :
    (SettingValue.integer (signedWord n)).asCount? = some n := by
  rw [signedWord_of_fits h, SettingValue.asCount?, if_pos hword, Int.natAbs_natCast]

theorem asCount?_signedWord_of_not_fits (hword : fitsUInt64 n = true) (h : fitsInt64 n = false) :
    (SettingValue.integer (signedWord n)).asCount? = none := by
  have hneg : ¬ fitsUInt64 (signedWord n) = true := by
    have hsign := signedWord_neg hword h
    simp only [fitsUInt64, Bool.and_eq_true, decide_eq_true_eq]
    omega
  rw [SettingValue.asCount?, if_neg hneg]

end SignedWord

/-! ## The layers of a call -/

namespace Options

/-- The values that the options put over all layers. -/
def overrides (o : Options) : List (String × SettingValue) :=
  (o.extension.map fun e =>
      ("output_extension", .text (String.ofList (e.toList.dropWhile (· = '.'))))).toList ++
    (o.workers.map fun n => ("workers", .integer (signedWord n))).toList ++
    (o.format.map fun f => ("format", .text f.label)).toList ++
    if o.noOverwrite then [("overwrite", .bool false)] else []

/-- The steps in which a call makes its layers. -/
def calls (o : Options) : List Layers.Call :=
  [.source (match o.config with
      | some p => .file p true
      | none => .file defaultConfig false),
    .source (.environment environmentHead), .exclude o.exclude] ++
    o.overrides.map fun m => .override m.1 m.2

variable {o : Options} {n : Nat}

theorem layers_eq_ofCalls (o : Options) : o.layers = Layers.ofCalls o.calls := by
  unfold layers calls overrides
  cases o.extension <;> cases o.workers <;> cases o.format <;> cases o.noOverwrite <;>
    simp only [Option.map_none, Option.map_some, Option.toList_none, Option.toList_some,
      List.nil_append, List.cons_append, Bool.false_eq_true, if_true, if_false, List.map_nil, List.map_cons,
      Layers.ofCalls, Layers.Call.apply, List.foldlM_nil, List.foldlM_cons, bind_pure] <;>
    rfl

theorem overridden_calls (o : Options) : Layers.overridden o.calls = o.overrides := by
  unfold calls Layers.overridden
  rw [List.filterMap_append, List.filterMap_map]
  exact List.filterMap_some

theorem lookup_overrides (h : o.workers = some n) :
    o.overrides.reverse.lookup "workers" = some (.integer (signedWord n)) := by
  unfold overrides
  rw [h]
  cases o.extension <;> cases o.format <;> cases o.noOverwrite <;> rfl

/-- Only settings are put over, and the last one of each counts, as there is only one. -/
theorem exists_overrides (o : Options) : ∃ os,
    o.layers = .ok ⟨Layers.sources o.calls, os, Layers.exclusions o.calls⟩ ∧ (os.map (·.1)).Nodup ∧
      (∀ p ∈ os, ∃ name, p.1 = .ofName name) ∧
      ∀ key, os.lookup (.ofName key) = o.overrides.reverse.lookup key := by
  have hnames : ∀ m ∈ o.overrides, m.1 ∈ Settings.names := by
    unfold overrides
    cases o.extension <;> cases o.workers <;> cases o.format <;> cases o.noOverwrite <;>
      simp [Settings.names]
  obtain ⟨os, hos, hdistinct, hroots, hlookup⟩ :=
    @Layers.overridesOf_eq_ok [] o.overrides hnames (by simp) (by simp)
  refine ⟨os, ?_, hdistinct, hroots, fun key => ?_⟩
  · rw [layers_eq_ofCalls, Layers.ofCalls_eq, overridden_calls, hos]
    rfl
  · rw [hlookup, List.lookup_nil, Option.or_none]

/-- The number in the arguments is what the table holds. -/
theorem get_workers (h : o.workers = some n) {store : FileStore} {env : List (String × String)}
    {ls : Layers} {ms : List (String × SettingValue)} (hls : o.layers = .ok ls)
    (hms : ls.table store env = .ok ms) : SettingValue.get "workers" ms = .integer (signedWord n) := by
  obtain ⟨os, hos, hdistinct, hroots, hlookup⟩ := o.exists_overrides
  cases hls.symm.trans hos
  obtain ⟨given, hgiven, htable⟩ := eq_ok_of_bind hms
  cases htable
  rw [SettingValue.get, Layers.lookup_putOverrides hdistinct hroots, hlookup, lookup_overrides h]
  rfl

/-! ## Settings but for the number of workers -/

/-- The sources and the other options make these settings, with no say on the number of workers, which is
    zero. -/
def OthersMake (o : Options) (env : List (String × String)) (store : FileStore) (s : Settings) : Prop :=
  ∃ (ls : Layers) (ms : List (String × SettingValue)) (t : Settings),
    o.layers = .ok ls ∧ ls.table store env = .ok ms ∧
    t.MadeOf (fun key => if key = "workers" then .integer 0 else SettingValue.get key ms) ∧
    s = { t with exclude := Layers.addMissing t.exclude ls.extraExclusions } ∧ s.validate = .ok ()

section OthersMake

variable {store : FileStore} {env : List (String × String)} {s : Settings}

/-- The settings of a call come from its table. -/
theorem settings_of_table {ls : Layers} {ms : List (String × SettingValue)} (hls : o.layers = .ok ls)
    (hms : ls.table store env = .ok ms) : o.settings env store = (do
      let t ← Settings.ofMembers ms
      let s : Settings := { t with exclude := Layers.addMissing t.exclude ls.extraExclusions }
      s.validate
      return s) := by
  rw [settings, hls]
  show ls.load store env = _
  rw [Layers.load, Layers.decided_of_table hms]
  cases Settings.ofMembers ms <;> rfl

/-- A number that is a count is what the settings get. -/
theorem OthersMake.settings_of_count (h : o.OthersMake env store s) (hn : o.workers = some n) {m : Nat}
    (hcount : (SettingValue.integer (signedWord n)).asCount? = some m) :
    o.settings env store = .ok { s with workers := m } := by
  obtain ⟨ls, ms, t, hls, hms, ht, rfl, hvalid⟩ := h
  have hmade : Settings.MadeOf (SettingValue.get · ms) { t with workers := m } := by
    refine ⟨ht.exclude, ht.outputExtension, ht.inputExtension, ?_, ht.overwrite, ht.format⟩
    rw [get_workers hn hls hms, hcount]
  rw [settings_of_table hls hms, Settings.ofMembers_eq_ok_iff.mpr hmade]
  -- the number is not among what is validated
  let u : Settings := { t with workers := m, exclude := Layers.addMissing t.exclude ls.extraExclusions }
  have hvalid' : u.validate = .ok () := hvalid
  show (u.validate >>= fun _ => .ok u) = .ok u
  rw [hvalid']
  rfl

/-- A number that is none is the only fault. -/
theorem OthersMake.settings_of_no_count (h : o.OthersMake env store s) (hn : o.workers = some n)
    (hcount : (SettingValue.integer (signedWord n)).asCount? = none) :
    o.settings env store = .error (.unsuitable "workers") := by
  obtain ⟨ls, ms, t, hls, hms, ht, -, -⟩ := h
  have hworkers := get_workers hn hls hms
  rw [settings_of_table hls hms]
  rcases Settings.ofMembers_cases ms with ⟨u, -, hu⟩ | ⟨key, hkey, hfault, hsuits⟩
  · have hcount' := hu.workers
    rw [hworkers, hcount] at hcount'
    exact nomatch hcount'
  · by_cases hsame : key = "workers"
    · rw [hfault, hsame]
      rfl
    · have hsuits' := ht.suits key hkey
      rw [if_neg hsame] at hsuits'
      exact absurd hsuits' hsuits

/-- What the sources give for workers makes no difference to a call that asks for a number. -/
theorem settings_congr (hn : o.workers = some n) {store' : FileStore} {env' : List (String × String)}
    (h : ∀ ls, o.layers = .ok ls → ∀ l ∈ ls.layers, Layers.GivesSameBut "workers" store store' env env' l) :
    o.settings env' store' = o.settings env store := by
  obtain ⟨os, hls, -⟩ := o.exists_overrides
  obtain ⟨ms, ns, hms, hns, hsame⟩ := Layers.exists_tables_of_givesSameBut (h _ hls)
  have hget (key : String) : SettingValue.get key ns = SettingValue.get key ms := by
    -- both tables got the number of workers from the arguments
    by_cases hkey : key = "workers"
    · rw [hkey, get_workers hn hls hms, get_workers hn hls hns]
    · rw [SettingValue.get, SettingValue.get, hsame key hkey]
  have hmembers : Settings.ofMembers ns = Settings.ofMembers ms := by
    simp only [Settings.ofMembers_eq, Settings.field, hget]
  rw [settings_of_table hls hms, settings_of_table hls hns, hmembers]

end OthersMake

/-- **The number of workers in the arguments decides, up to half of the range.** Take any call with a number of
    workers, in any surroundings in which the other settings can be made and are valid. The number is one that a
    word of 64 bits holds. If a signed word holds it, the settings are those others, with this number. If it is in
    the upper half of the range, there are no settings: it does not suit as a count. What the settings file and
    the environment give for workers makes no difference. -/
theorem workers_as_given {arguments : List String} {o : Options} {n : Nat} {env : List (String × String)}
    {store : FileStore} {s : Settings} (hread : ofArguments arguments = .ok o) (hn : o.workers = some n)
    (hothers : o.OthersMake env store s) :
    fitsUInt64 n = true ∧
      (fitsInt64 n = true → o.settings env store = .ok { s with workers := n }) ∧
      (fitsInt64 n = false → o.settings env store = .error (.unsuitable "workers")) ∧
      ∀ env' store', (∀ ls, o.layers = .ok ls →
          ∀ l ∈ ls.layers, Layers.GivesSameBut "workers" store store' env env' l) →
        o.settings env' store' = o.settings env store := by
  have hword : fitsUInt64 n = true := countFits_of_ofArguments hread n hn
  refine ⟨hword, fun hlower => ?_, fun hupper => ?_, fun env' store' hsame => ?_⟩
  · exact hothers.settings_of_count hn (asCount?_signedWord_of_fits hword hlower)
  · exact hothers.settings_of_no_count hn (asCount?_signedWord_of_not_fits hword hupper)
  · exact settings_congr hn hsame

/-- A call for a number of workers and nothing else. -/
def callFor (n : Nat) : Options := { start with paths := [⟨"a.txt"⟩], workers := some n }

theorem ofArguments_callFor {n : Nat} {digits : String} (h : fitsUInt64 n = true) (hdigits : toString n = digits) :
    ofArguments ["--workers", digits, "a.txt"] = .ok (callFor n) :=
  hdigits ▸ ofArguments_workers h (by decide) (by decide)

/-- Variables that give a format, and for workers what is no number. -/
def formatVariables : List (String × String) := [("SELCONV_WORKERS", "many"), ("SELCONV_FORMAT", "json")]

theorem workers_as_given_many :
    ofArguments ["--workers", "9223372036854775807", "a.txt"] = .ok (callFor 9223372036854775807) ∧
      (callFor 9223372036854775807).OthersMake formatVariables (.atDirectory ["w"])
        { Settings.default with format := .json } ∧
      (callFor 9223372036854775807).settings formatVariables (.atDirectory ["w"]) =
        .ok { Settings.default with workers := 9223372036854775807, format := .json } := by
  have hread : ofArguments ["--workers", "9223372036854775807", "a.txt"] = .ok (callFor 9223372036854775807) :=
    ofArguments_callFor (by decide) (by decide +kernel)
  have hothers : (callFor 9223372036854775807).OthersMake formatVariables (.atDirectory ["w"])
      { Settings.default with format := .json } := by
    refine ⟨_, _, { Settings.default with format := .json }, rfl, rfl, ?_, rfl, rfl⟩
    constructor <;> decide +kernel
  exact ⟨hread, hothers, (workers_as_given hread rfl hothers).2.1 (by decide)⟩

/-- One more than a signed word holds is read from the arguments and then refused, and nothing is converted, while
    all other settings have their defaults. -/
theorem workers_lost_in_sign :
    ofArguments ["--workers", "9223372036854775808", "a.txt"] = .ok (callFor 9223372036854775808) ∧
      (callFor 9223372036854775808).OthersMake [] (.atDirectory ["w"]) .default ∧
      (callFor 9223372036854775808).settings [] (.atDirectory ["w"]) = .error (.unsuitable "workers") ∧
      (run [] (.atDirectory ["w"]) ["--workers", "9223372036854775808", "a.txt"]).code = 2 := by
  have hread : ofArguments ["--workers", "9223372036854775808", "a.txt"] = .ok (callFor 9223372036854775808) :=
    ofArguments_callFor (by decide) (by decide +kernel)
  have hothers : (callFor 9223372036854775808).OthersMake [] (.atDirectory ["w"]) .default := by
    refine ⟨_, _, .default, rfl, rfl, ?_, rfl, rfl⟩
    constructor <;> decide +kernel
  have hsettings : (callFor 9223372036854775808).settings [] (.atDirectory ["w"]) =
      .error (.unsuitable "workers") :=
    hothers.settings_of_no_count rfl (asCount?_signedWord_of_not_fits (by decide) (by decide))
  refine ⟨hread, hothers, hsettings, ?_⟩
  simp only [run, hread, hsettings]

end Options

end CommandLine

end FacetQuery

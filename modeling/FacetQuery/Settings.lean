import FacetQuery.Fault
import FacetQuery.Json.Value
import FacetQuery.Settings.Value

/-!
# `FacetQuery.Settings` — what a user may choose

The settings of a run, their defaults, and the rules that make them valid: an excluded name must be a word
that the grammar could read as a facet name, and an extension must be a plain word.
-/

namespace FacetQuery

/-- The settings of a run. -/
structure Settings where
  /-- Names of facets to drop. -/
  exclude : List String
  /-- The extension of outputs; by default the one that goes with the format. -/
  outputExtension : Option String
  /-- If given, inputs with any other extension are passed over. -/
  inputExtension : Option String
  /-- How many workers convert files at a time; zero stands for one per processor. -/
  workers : Nat
  /-- Whether an output may replace a file. -/
  overwrite : Bool
  format : Format
  deriving DecidableEq

namespace Settings

/-- What holds where a user chooses nothing. -/
def default : Settings := ⟨[], none, none, 0, true, .text⟩

instance : Inhabited Settings := ⟨default⟩

/-- The extension that outputs get. -/
def effectiveExtension (s : Settings) : String := s.outputExtension.getD s.format.extension

/-- The excluded names in ascending order, each once. -/
def exclusions (s : Settings) : List String :=
  (s.exclude.mergeSort fun a b => !(b < a)).eraseReps

/-! ## Validity -/

/-- Whether a text is made of at least one character of the class. -/
def isWordOf (inClass : Char → Bool) (s : String) : Bool :=
  !s.toList.isEmpty && s.toList.all inClass

/-- The characters that a name to exclude may have. -/
def isNameChar (c : Char) : Bool :=
  ('A' ≤ c && c ≤ 'Z') || ('a' ≤ c && c ≤ 'z') || ('0' ≤ c && c ≤ '9') ||
    c == '_' || c == '*' || c == '-'

/-- They are the characters of which the grammar makes its words. -/
theorem isNameChar_eq_isWordChar (c : Char) : isNameChar c = Selection.isWordChar c := by
  have hupper : c.isUpper = ('A' ≤ c && c ≤ 'Z') := Bool.decide_and _ _
  have hlower : c.isLower = ('a' ≤ c && c ≤ 'z') := rfl
  have hdigit : c.isDigit = ('0' ≤ c && c ≤ '9') := rfl
  show _ = (c.isUpper || c.isLower || c.isDigit || c == '_' || c == '-' || c == '*')
  rw [isNameChar, hupper, hlower, hdigit]
  ac_rfl

/-- Whether a facet can have this name. -/
def isFacetName (s : String) : Bool := isWordOf isNameChar s

/-- Whether a file extension can be this text. -/
def isExtension (s : String) : Bool := isWordOf (fun c => c.isAlphanum || c == '_' || c == '-') s

/-- Names the first fault of the settings: of the excluded names, then of the output extension, then of
    the input extension. -/
def validate (s : Settings) : Except SettingsFault Unit :=
  match s.exclude.find? (!isFacetName ·) with
  | some name => .error (.facetName name)
  | none =>
      match (s.outputExtension.toList ++ s.inputExtension.toList).find? (!isExtension ·) with
      | some ext => .error (.extension ext)
      | none => .ok ()

/-- Settings are valid iff every excluded name and every given extension is. -/
theorem validate_eq_ok_iff {s : Settings} :
    s.validate = .ok () ↔
      (∀ n ∈ s.exclude, isFacetName n = true) ∧
      (∀ e ∈ s.outputExtension, isExtension e = true) ∧
      (∀ e ∈ s.inputExtension, isExtension e = true) := by
  unfold validate
  split
  · next name h =>
      have hbad := List.find?_some h
      have hmem := List.mem_of_find?_eq_some h
      simp only [reduceCtorEq, false_iff, not_and]
      intro hall
      simp [hall name hmem] at hbad
  · next h =>
      have hnames : ∀ n ∈ s.exclude, isFacetName n = true := by
        simpa [List.find?_eq_none] using h
      split
      · next ext he =>
          have hbad := List.find?_some he
          have hmem := List.mem_of_find?_eq_some he
          simp only [reduceCtorEq, false_iff, not_and]
          intro _ hout hin
          rcases List.mem_append.mp hmem with hm | hm
          · simp [hout ext (by simpa using hm)] at hbad
          · simp [hin ext (by simpa using hm)] at hbad
      · next he =>
          simp only [List.find?_eq_none, List.mem_append, Option.mem_toList] at he
          simp only [true_iff]
          exact ⟨hnames, fun e h => by simpa using he e (Or.inl h),
            fun e h => by simpa using he e (Or.inr h)⟩

/-! ## Reading settings -/

/-- The settings among the members of a table. Every setting is looked up under its own name and turned
    into what it holds; other members are passed over. -/
def ofMembers (ms : List (String × SettingValue)) : Except SettingsFault Settings := do
  let field {α : Type} (key : String) (convert : SettingValue → Option α) :
      Except SettingsFault α :=
    match convert (SettingValue.get key ms) with
    | some a => .ok a
    | none => .error (.unsuitable key)
  return {
    exclude := ← field "exclude" SettingValue.asTexts?
    outputExtension := ← field "output_extension" SettingValue.asOptionalText?
    inputExtension := ← field "input_extension" SettingValue.asOptionalText?
    workers := ← field "workers" SettingValue.asCount?
    overwrite := ← field "overwrite" SettingValue.asBool?
    format := ← field "format" SettingValue.asFormat? }

/-- The value of a field of a record, or its default if the field is not given. -/
def fieldOr {α : Type} (otherwise : α) (read : Json → Option α) : Option Json → Option α
  | none => some otherwise
  | some j => read j

/-- A text that may be `null`. -/
def optionalText? : Json → Option (Option String)
  | .null => some none
  | j => j.asString?.map some

/-- A number that an unsigned word of 64 bits holds, written as an integer. -/
def count? : Json → Option Nat
  | .integer false n => if fitsUInt64 n then some n else none
  | _ => none

/-- A truth value. -/
def bool? : Json → Option Bool
  | .bool b => some b
  | _ => none

/-- A format: its word, or an object with the word as its only key and `null` as its value. -/
def format? : Json → Option Format
  | .text (some s) => Format.ofLabel? s
  | .object [(some k, .null)] => Format.ofLabel? k
  | _ => none

/-- The settings that a JSON record stands for, without any conversion; a field that is not given has its
    default. -/
def ofJson? (j : Json) : Option Settings := do
  match ← j.fields?
      ["exclude", "output_extension", "input_extension", "workers", "overwrite", "format"] with
  | [exclude, output, input, workers, overwrite, format] =>
      return {
        exclude := ← fieldOr [] (fun j => do (← j.asArray?).mapM Json.asString?) exclude
        outputExtension := ← fieldOr none optionalText? output
        inputExtension := ← fieldOr none optionalText? input
        workers := ← fieldOr 0 count? workers
        overwrite := ← fieldOr true bool? overwrite
        format := ← fieldOr .text format? format }
  | _ => none

end Settings

end FacetQuery

import FacetQuery.Conversion
import FacetQuery.Output
import FacetQuery.Settings

/-!
# `FacetQuery.Batch` — converting many files

Every path of a batch gets one outcome. A path whose output an earlier path claims already is passed over,
and so are paths with another extension than the one asked for; what becomes of one path does not touch
the others. The files are a value that is handed from conversion to conversion.

## Contents
- `Outcome`, `Report`, `Batch`, and the output that a path claims.
- One path: `prepare` up to the rendering, `settle` what it becomes, `conclude` once it is written.
- `Batch.run`, the reports on a list of paths.
- `Batch.convert?` and `Batch.run?`, for settings that nobody has validated.
-/

namespace FacetQuery

/-! ## Outcomes -/

/-- Where renderings go. -/
inductive Sink where
  /-- Into files next to the inputs, under the output extension. -/
  | files
  /-- Into the reports; no file is touched. -/
  | collect
  deriving DecidableEq, Inhabited

/-- Why a path was passed over. -/
inductive SkipReason where
  /-- It has not the extension that inputs must have. -/
  | otherExtension (wanted : String)
  /-- An earlier path has the same output. -/
  | claimed
  /-- Its output would be itself. -/
  | ownInput
  deriving DecidableEq, Inhabited

/-- The reason in words. -/
def SkipReason.message : SkipReason → String
  | otherExtension e => "not a ." ++ e ++ " file"
  | claimed => "output already claimed by an earlier input"
  | ownInput => "output would replace the input"

/-- What became of a path. -/
inductive Outcome where
  | written (output : Path)
  | collected (rendering : String)
  /-- The file is fine and holds no facets and no requests. -/
  | empty
  | failed (f : Fault)
  | skipped (r : SkipReason)
  | cancelled
  deriving DecidableEq, Inhabited

/-- What became of which path. -/
structure Report where
  path : Path
  outcome : Outcome
  deriving DecidableEq, Inhabited

/-- Whether the path failed. -/
def Report.isFailure (r : Report) : Bool :=
  match r.outcome with
  | .failed _ => true
  | _ => false

/-- What holds for all paths of a batch. -/
structure Batch where
  settings : Settings
  sink : Sink
  deriving DecidableEq, Inhabited

namespace Batch

/-! ## Claims on outputs -/

/-- Whether a path has the extension that inputs must have. -/
def accepts (b : Batch) (p : Path) : Bool := b.settings.inputExtension.all p.hasExtension

/-- The output that goes with an input. -/
def outputPath (b : Batch) (p : Path) : Path := p.withExtension b.settings.effectiveExtension

/-- The output that a path claims; none if it will write no file. -/
def claim? (b : Batch) (p : Path) : Option Path :=
  if b.sink = .files ∧ b.accepts p then some (b.outputPath p) else none

/-- Whether a path claims an output that one of the earlier paths claims. -/
def isClaimed (b : Batch) (earlier : List Path) (p : Path) : Bool :=
  match b.claim? p with
  | some o => (earlier.filterMap b.claim?).any (·.same o)
  | none => false

/-! ## One path -/

/-- A failure, reported. -/
def fail (p : Path) (f : Fault) : Logged Outcome :=
  ⟨.failed f,
    [⟨.warn, .interface, "conversion failed", [("path", p.text), ("error", f.message)]⟩]⟩

/-- Reads and converts a file: its rendering, or the outcome if there is none. -/
def prepare (b : Batch) (store : FileStore) (p : Path) : Logged (Outcome ⊕ String) := do
  match b.settings.inputExtension with
  | some ext =>
      if !p.hasExtension ext then
        let reason := SkipReason.otherExtension ext
        Logged.note ⟨.info, .interface, "skipping, " ++ reason.message, [("path", p.text)]⟩
        return .inl (.skipped reason)
  | none => pure ()
  match readInput store p with
  | .error f => return .inl (← fail p f)
  | .ok text =>
      let (result, _) ←
        (Conversion.start p).process text b.settings.exclude b.settings.format
      match result with
      | .ok rendering => return .inr rendering
      | .error f =>
          if f.isInformational then
            Logged.note ⟨.info, .interface, "no facets or requests, nothing written",
              [("path", p.text)]⟩
            return .inl .empty
          else return .inl (← fail p f)

/-- What a rendering becomes: an outcome, or an output that is yet to be written. -/
def settle (b : Batch) (p : Path) (rendering : String) : Logged (Outcome ⊕ Output) :=
  match b.sink with
  | .collect => pure (.inl (.collected rendering))
  | .files =>
      if (b.outputPath p).same p then
        ⟨.inl (.skipped .ownInput),
          [⟨.warn, .interface, "output path equals the input path", [("path", p.text)]⟩]⟩
      else pure (.inr ⟨b.outputPath p, rendering, b.settings.overwrite⟩)

/-- What comes of a path, short of writing its output. -/
def judge (b : Batch) (store : FileStore) (p : Path) : Logged (Outcome ⊕ Output) := do
  match ← b.prepare store p with
  | .inl outcome => return .inl outcome
  | .inr rendering => b.settle p rendering

/-- The outcome for a path once its output was written, or could not be. -/
def conclude (p : Path) (o : Output) : Except Fault Unit → Logged Outcome
  | .ok _ =>
      ⟨.written o.path,
        [⟨.info, .interface, "converted", [("path", p.text), ("output", o.path.text)]⟩]⟩
  | .error f => fail p f

/-- Brings about what comes of a path. -/
def finish (p : Path) (store : FileStore) : Outcome ⊕ Output → Logged (Outcome × FileStore)
  | .inl outcome => pure (outcome, store)
  | .inr o => do
      let (result, after) ← o.write store
      return (← conclude p o result, after)

/-- Converts one file. -/
def convert (b : Batch) (store : FileStore) (p : Path) : Logged (Outcome × FileStore) := do
  finish p store (← b.judge store p)

/-! ## All paths -/

/-- What comes of a path that has others before it in the batch, short of writing its output. -/
def consider (b : Batch) (cancelled : Bool) (store : FileStore) (earlier : List Path) (p : Path) :
    Logged (Outcome ⊕ Output) :=
  if cancelled then pure (.inl .cancelled)
  else if b.isClaimed earlier p then
    ⟨.inl (.skipped .claimed),
      [⟨.warn, .interface, SkipReason.claimed.message, [("path", p.text)]⟩]⟩
  else b.judge store p

/-- Deals with a path that has others before it in the batch. -/
def attend (b : Batch) (cancelled : Bool) (store : FileStore) (earlier : List Path) (p : Path) :
    Logged (Outcome × FileStore) := do
  finish p store (← b.consider cancelled store earlier p)

/-- Deals with the paths that follow those in `earlier`. -/
def runFrom (b : Batch) (cancelled : Bool) (store : FileStore) (earlier : List Path) :
    List Path → Logged (List Report × FileStore)
  | [] => return ([], store)
  | p :: ps => do
      let (outcome, after) ← b.attend cancelled store earlier p
      let (reports, final) ← b.runFrom cancelled after (earlier ++ [p]) ps
      return (⟨p, outcome⟩ :: reports, final)

/-- Deals with every path of a batch, one report for each, in the order given. -/
def run (b : Batch) (cancelled : Bool) (store : FileStore) (paths : List Path) :
    Logged (List Report × FileStore) := b.runFrom cancelled store [] paths

theorem map_path_runFrom (b : Batch) (cancelled : Bool) (store : FileStore)
    (earlier paths : List Path) :
    ((b.runFrom cancelled store earlier paths).value.1).map (·.path) = paths := by
  induction paths generalizing store earlier with
  | nil => rfl
  | cons p ps ih => simp [runFrom, ih]

/-- There is one report for each path, in the order of the paths. -/
theorem map_path_run (b : Batch) (cancelled : Bool) (store : FileStore) (paths : List Path) :
    ((b.run cancelled store paths).value.1).map (·.path) = paths :=
  b.map_path_runFrom cancelled store [] paths

/-! ## Settings that nobody has validated -/

/-- Whether the output extension can stand in a file name. -/
def namesOutputs (b : Batch) : Bool := Path.isExtension b.settings.effectiveExtension

/-- Valid settings have an output extension that can stand in a file name. -/
theorem namesOutputs_of_validate {b : Batch} (h : b.settings.validate = .ok ()) :
    b.namesOutputs = true := by
  have hout := (Settings.validate_eq_ok_iff.mp h).2.1
  unfold namesOutputs Settings.effectiveExtension
  cases he : b.settings.outputExtension with
  | none => cases b.settings.format <;> decide
  | some ext =>
      have hword := hout ext he
      simp only [Settings.isExtension, Settings.isWordOf, Bool.and_eq_true, List.all_eq_true] at hword
      simp only [Path.isExtension, Option.getD_some, Bool.not_eq_true', List.contains_eq_mem,
        decide_eq_false_iff_not]
      intro hslash
      exact absurd (hword.2 _ hslash) (by decide)

/-- Converts one file; none if it has a rendering whose output cannot be named. -/
def convert? (b : Batch) (store : FileStore) (p : Path) : Logged (Option (Outcome × FileStore)) := do
  match ← b.prepare store p with
  | .inl outcome => return some (outcome, store)
  | .inr rendering =>
      if b.sink = .files ∧ b.namesOutputs = false then return none
      else return some (← finish p store (← b.settle p rendering))

/-- Under valid settings every file is converted. -/
theorem convert?_of_validate {b : Batch} (h : b.settings.validate = .ok ()) (store : FileStore)
    (p : Path) :
    (b.convert? store p).value = some (b.convert store p).value ∧
      (b.convert? store p).log = (b.convert store p).log := by
  have hname := namesOutputs_of_validate h
  simp only [convert?, convert, judge, Logged.value_bind, Logged.log_bind]
  cases (b.prepare store p).value with
  | inl outcome => simp [finish]
  | inr rendering => simp [hname]

/-- Deals with every path of a batch; none if a path claims an output that cannot be named. -/
def run? (b : Batch) (cancelled : Bool) (store : FileStore) (paths : List Path) :
    Option (Logged (List Report × FileStore)) :=
  if b.namesOutputs = true ∨ (paths.filterMap b.claim?) = [] then some (b.run cancelled store paths)
  else none

/-- Under valid settings every batch is dealt with. -/
theorem run?_of_validate {b : Batch} (h : b.settings.validate = .ok ()) (cancelled : Bool)
    (store : FileStore) (paths : List Path) :
    b.run? cancelled store paths = some (b.run cancelled store paths) := by
  simp [run?, namesOutputs_of_validate h]

end Batch

end FacetQuery

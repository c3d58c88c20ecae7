import FacetQuery.Batch
import FacetQuery.CommandLine.LogFilter
import FacetQuery.CommandLine.Options
import FacetQuery.Settings.Layers

/-!
# `FacetQuery.CommandLine.Run` — a call of the program

A call maps arguments, environment and files to an exit code, the texts of the two output streams, and the
files afterwards. Every path of the call has one entry: on standard error if it failed, and on standard
output else, each in the order of the arguments.
-/

namespace FacetQuery.CommandLine

/-- What a call leaves behind. -/
structure Finished where
  code : Nat
  stdout : String
  stderr : String
  store : FileStore
  deriving Inhabited

/-- What the program says of itself. -/
def versionText : String := "selconv 0.1.0\n"

/-- How the program is called. -/
def helpText : String :=
  String.join
    ["Converts legacy selection files into structured queries\n\n",
      "Usage: selconv [OPTIONS] <PATHS>...\n\n",
      "Arguments:\n",
      "  <PATHS>...  Selection files to convert\n\n",
      "Options:\n",
      "  -c, --config <CONFIG>        TOML settings file\n",
      "  -x, --exclude <NAME>         Facet name to drop (repeatable)\n",
      "  -e, --extension <EXTENSION>  Extension substituted on the input path for the output\n",
      "  -j, --workers <WORKERS>      Worker threads, 0 for one per CPU\n",
      "  -f, --format <FORMAT>        Output format (text or json)\n",
      "      --no-overwrite           Refuse to replace existing outputs\n",
      "      --stdout                 Print renderings instead of writing files\n",
      "  -v, --verbose...             More logging (repeatable)\n",
      "  -q, --quiet                  Only log errors\n",
      "  -h, --help                   Print help\n",
      "  -V, --version                Print version\n"]

/-! ## Settings and logging of a call -/

/-- The most detailed level that a call asks for. -/
def Options.level (o : Options) : Level :=
  if o.quiet then .error
  else
    match o.verbose with
    | 0 => .info
    | 1 => .debug
    | _ => .trace

/-- The filter for the log of a call: the one in the environment, if it can be read. -/
def Options.logFilter (o : Options) (env : List (String × String)) : LogFilter :=
  ((env.lookup "RUST_LOG").bind LogFilter.ofString?).getD (.upTo o.level)

/-- The word that the variables of the program start with. -/
def environmentHead : String := "SELCONV"

/-- The settings file that is read where a call names none. -/
def defaultConfig : Path := ⟨"selconv.toml"⟩

/-- A count as a signed word of 64 bits. -/
def signedWord (n : Nat) : Int := (n : Int).bmod 18446744073709551616

/-- The layers of a call: its settings file, then the environment, then its options. -/
def Options.layers (o : Options) : Except SettingsFault Layers := do
  let file : Layer :=
    match o.config with
    | some p => .file p true
    | none => .file defaultConfig false
  let base := ((Layers.defaults.add file).add (.environment environmentHead)).exclude o.exclude
  let withExtension ←
    match o.extension with
    | some e => base.override "output_extension" (.text (String.ofList (e.toList.dropWhile (· = '.'))))
    | none => pure base
  let withWorkers ←
    match o.workers with
    | some n => withExtension.override "workers" (.integer (signedWord n))
    | none => pure withExtension
  let withFormat ←
    match o.format with
    | some f => withWorkers.override "format" (.text f.label)
    | none => pure withWorkers
  if o.noOverwrite then withFormat.override "overwrite" (.bool false) else pure withFormat

/-- The settings of a call. -/
def Options.settings (o : Options) (env : List (String × String)) (store : FileStore) :
    Except SettingsFault Settings := do
  (← o.layers).load store env

/-! ## The streams -/

/-- The entry of a path on standard output; none if it failed. -/
def stdoutEntry (r : Report) : Option String :=
  match r.outcome with
  | .written output => some (r.path.text ++ " -> " ++ output.text ++ "\n")
  | .collected rendering => some ("# " ++ r.path.text ++ "\n" ++ rendering)
  | .empty => some (r.path.text ++ ": empty, nothing written\n")
  | .skipped reason => some (r.path.text ++ ": skipped, " ++ reason.message ++ "\n")
  | .cancelled => some (r.path.text ++ ": cancelled\n")
  | .failed _ => none

/-- The line of a path on standard error, if it failed. -/
def stderrEntry (r : Report) : Option String :=
  match r.outcome with
  | .failed f => some (r.path.text ++ ": " ++ f.message ++ "\n")
  | _ => none

/-- The log of a call that has failures. -/
def failureNotice (failures total : Nat) : Log :=
  if failures = 0 then []
  else
    [⟨.error, .program, "some files failed to convert",
      [("failures", toString failures), ("total", toString total)]⟩]

/-- The lines of the events that a filter shows. -/
def shownLines (filter : LogFilter) (log : Log) : String :=
  String.join ((log.filter filter.shows).map logLine)

/-- Converts the paths of a call under its settings. -/
def convertAll (o : Options) (filter : LogFilter) (settings : Settings) (store : FileStore) :
    Finished :=
  let batch : Batch := ⟨settings, if o.stdout then .collect else .files⟩
  let ran := batch.run false store o.paths
  let (reports, after) := ran.value
  let failures := (reports.filter Report.isFailure).length
  { code := if failures = 0 then 0 else 1
    stdout := String.join (reports.filterMap stdoutEntry)
    stderr :=
      shownLines filter ran.log ++ String.join (reports.filterMap stderrEntry) ++
        shownLines filter (failureNotice failures reports.length)
    store := after }

/-- A call of the program. -/
def run (env : List (String × String)) (store : FileStore) (arguments : List String) : Finished :=
  match Options.ofArguments arguments with
  | .error .version => ⟨0, versionText, "", store⟩
  | .error .help => ⟨0, helpText, "", store⟩
  | .error (.usage f) => ⟨2, "", "error: " ++ f.message ++ "\n", store⟩
  | .ok o =>
      let filter := o.logFilter env
      match o.settings env store with
      | .error f =>
          ⟨2, "",
            shownLines filter
              [⟨.error, .program, "invalid settings", [("e", (Fault.settings f).message)]⟩], store⟩
      | .ok settings => convertAll o filter settings store

end FacetQuery.CommandLine

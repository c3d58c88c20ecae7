import FacetQuery.Path
import FacetQuery.Query.Rendering

/-!
# `FacetQuery.CommandLine.Options` — what the arguments of a call mean

Arguments are read from left to right. A long option may have its value behind `=` or in the next argument,
a short one right behind its letter, with or without `=`, or in the next argument; letters of options
without a value may stand together. What looks like an option is never taken from the next argument as a
value. After `--` every argument is a path.
-/

namespace FacetQuery.CommandLine

/-- What a call asks for. -/
structure Options where
  paths : List Path
  config : Option Path
  exclude : List String
  extension : Option String
  workers : Option Nat
  format : Option Format
  noOverwrite : Bool
  stdout : Bool
  verbose : Nat
  quiet : Bool
  deriving DecidableEq, Inhabited

/-- What holds before any argument is read. -/
def Options.start : Options :=
  ⟨[], none, [], none, none, none, false, false, 0, false⟩

/-- An option that takes no value. -/
inductive Flag where
  | noOverwrite | stdout | verbose | quiet | version | help
  deriving DecidableEq, Inhabited

/-- An option that takes a value. -/
inductive Choice where
  | config | exclude | extension | workers | format
  deriving DecidableEq, Inhabited

/-- What is wrong with the arguments. -/
inductive UsageFault where
  | unknown (argument : String)
  | missingValue (name : String)
  | unexpectedValue (name : String)
  | badValue (name value : String)
  | repeated (name : String)
  | quietAndVerbose
  | emptyPath
  | noPaths
  deriving DecidableEq, Inhabited

/-- The fault in words. -/
def UsageFault.message : UsageFault → String
  | unknown a => "unexpected argument '" ++ a ++ "'"
  | missingValue n => "a value is required for '" ++ n ++ "'"
  | unexpectedValue n => "'" ++ n ++ "' takes no value"
  | badValue n v => "invalid value '" ++ v ++ "' for '" ++ n ++ "'"
  | repeated n => "'" ++ n ++ "' cannot be used more than once"
  | quietAndVerbose => "'--quiet' cannot be used with '--verbose'"
  | emptyPath => "a path cannot be empty"
  | noPaths => "at least one path is required"

/-- Why reading the arguments ends before a batch can be run. -/
inductive Stop where
  | usage (f : UsageFault)
  | version
  | help
  deriving DecidableEq, Inhabited

/-! ## Names -/

/-- The option without a value that has a long name. -/
def Flag.ofName? : String → Option Flag
  | "no-overwrite" => some noOverwrite
  | "stdout" => some stdout
  | "verbose" => some verbose
  | "quiet" => some quiet
  | "version" => some version
  | "help" => some help
  | _ => none

/-- The option without a value that has a letter. -/
def Flag.ofLetter? : Char → Option Flag
  | 'v' => some verbose
  | 'q' => some quiet
  | 'V' => some version
  | 'h' => some help
  | _ => none

/-- The long name of an option that takes a value. -/
def Choice.name : Choice → String
  | config => "config"
  | exclude => "exclude"
  | «extension» => "extension"
  | workers => "workers"
  | format => "format"

/-- The option with a value that has a long name. -/
def Choice.ofName? : String → Option Choice
  | "config" => some config
  | "exclude" => some exclude
  | "extension" => some «extension»
  | "workers" => some workers
  | "format" => some format
  | _ => none

/-- The option with a value that has a letter. -/
def Choice.ofLetter? : Char → Option Choice
  | 'c' => some config
  | 'x' => some exclude
  | 'e' => some «extension»
  | 'j' => some workers
  | 'f' => some format
  | _ => none

/-! ## Effects -/

namespace Options

/-- The options after one without a value was met. -/
def applyFlag (o : Options) : Flag → Except Stop Options
  | .noOverwrite =>
      if o.noOverwrite then .error (.usage (.repeated "no-overwrite"))
      else .ok { o with noOverwrite := true }
  | .stdout =>
      if o.stdout then .error (.usage (.repeated "stdout")) else .ok { o with stdout := true }
  | .verbose => .ok { o with verbose := o.verbose + 1 }
  | .quiet =>
      if o.quiet then .error (.usage (.repeated "quiet")) else .ok { o with quiet := true }
  | .version => .error .version
  | .help => .error .help

/-- The options after one with its value was met. Names to exclude add up; any other option may be given
    once. -/
def applyChoice (o : Options) (c : Choice) (value : String) : Except Stop Options :=
  let bad : Except Stop Options := .error (.usage (.badValue c.name value))
  let twice : Except Stop Options := .error (.usage (.repeated c.name))
  match c with
  | .config =>
      if o.config.isSome then twice
      else if value.isEmpty then bad
      else .ok { o with config := some ⟨value⟩ }
  | .exclude => .ok { o with exclude := o.exclude ++ [value] }
  | .extension =>
      if o.extension.isSome then twice else .ok { o with «extension» := some value }
  | .workers =>
      if o.workers.isSome then twice
      else
        match uint64? value.toList with
        | some n => .ok { o with workers := some n }
        | none => bad
  | .format =>
      if o.format.isSome then twice
      else
        match Format.ofString? value with
        | some f => .ok { o with format := some f }
        | none => bad

/-- The options after a path was met. -/
def addPath (o : Options) (p : String) : Except Stop Options :=
  if p.isEmpty then .error (.usage .emptyPath) else .ok { o with paths := o.paths ++ [⟨p⟩] }

end Options

/-! ## Reading arguments -/

/-- Whether an argument looks like an option, and so is never taken as the value of another. -/
def looksLikeOption (argument : String) : Bool :=
  match argument.toList with
  | '-' :: _ :: _ => true
  | _ => false

/-- What a bundle of letters leaves to do: nothing, or to find the value of an option. -/
inductive Pending where
  | done (o : Options)
  | needs (o : Options) (c : Choice)

/-- The text behind a `=` at its front, or the text itself. -/
def afterEquals : List Char → List Char
  | '=' :: r => r
  | r => r

/-- Reads the letters of an argument that starts with one dash. -/
def readLetters (o : Options) : List Char → Except Stop Pending
  | [] => .ok (.done o)
  | c :: cs =>
      match Flag.ofLetter? c with
      | some f => do readLetters (← o.applyFlag f) cs
      | none =>
          match Choice.ofLetter? c, cs with
          | some k, [] => .ok (.needs o k)
          | some k, _ => do return .done (← o.applyChoice k (String.ofList (afterEquals cs)))
          | none, _ => .error (.usage (.unknown (String.ofList ['-', c])))

/-- Reads an argument that starts with two dashes. -/
def readLong (o : Options) (body : List Char) : Except Stop Pending :=
  let name := String.ofList (body.takeWhile (· ≠ '='))
  let value :=
    match body.dropWhile (· ≠ '=') with
    | _ :: v => some (String.ofList v)
    | [] => none
  match Flag.ofName? name, Choice.ofName? name, value with
  | some f, _, none => do return .done (← o.applyFlag f)
  | some _, _, some _ => .error (.usage (.unexpectedValue name))
  | _, some c, some v => do return .done (← o.applyChoice c v)
  | _, some c, none => .ok (.needs o c)
  | _, _, _ => .error (.usage (.unknown ("--" ++ name)))

/-- Reads one argument that is no value. -/
def readArgument (o : Options) (argument : String) : Except Stop Pending :=
  match argument.toList with
  | '-' :: '-' :: body => readLong o body
  | '-' :: c :: cs => readLetters o (c :: cs)
  | _ => do return .done (← o.addPath argument)

/-- Reads arguments. -/
def readArguments (o : Options) : List String → Except Stop Options
  | [] => .ok o
  | a :: rest =>
      if a = "--" then rest.foldlM Options.addPath o
      else
        match readArgument o a with
        | .error stop => .error stop
        | .ok (.done o') => readArguments o' rest
        | .ok (.needs o' c) =>
            match rest with
            | v :: rest' =>
                if looksLikeOption v then .error (.usage (.missingValue c.name))
                else
                  match o'.applyChoice c v with
                  | .error stop => .error stop
                  | .ok o'' => readArguments o'' rest'
            | [] => .error (.usage (.missingValue c.name))

/-- The options that the arguments of a call make up. There must be a path, and nobody can ask for silence
    and detail at once. -/
def Options.ofArguments (arguments : List String) : Except Stop Options := do
  let o ← readArguments .start arguments
  if o.quiet ∧ 0 < o.verbose then .error (.usage .quietAndVerbose)
  else if o.paths = [] then .error (.usage .noPaths)
  else return o

end FacetQuery.CommandLine

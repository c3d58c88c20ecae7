import FacetQuery.CommandLine.Run

/-!
# `FacetQuery.CommandLine.Surroundings` — what a call sees of the system

A call sees the variables of its environment and some of the files: those that may hold its settings, its
paths, and what lies beside them. This module says which variables a block of them holds and which places
must be looked at, so that the program itself only has to look.
-/

namespace FacetQuery.CommandLine

/-- The variables in a block of lines of the form `name=value`, each ended by a zero character. -/
def variablesOf (block : List Char) : List (String × String) :=
  (block.splitOn '\x00').filterMap fun line =>
    match line.dropWhile (· ≠ '=') with
    | _ :: value => some (String.ofList (line.takeWhile (· ≠ '=')), String.ofList value)
    | [] => none

/-- The place that a text of names between slashes stands for. -/
def placeOfText (text : String) : Place :=
  ((text.toList.splitOn '/').filter (· ≠ [])).map String.ofList

/-- The text of a place, from the root on. -/
def textOfPlace (place : Place) : String := "/" ++ String.intercalate "/" place

/-- The paths whose files a call may read. -/
def Options.inputs (current : Place) (o : Options) : List Path :=
  Layers.candidates current (o.config.getD defaultConfig) ++ o.paths

/-- The places that segments lead through, the one they start from first. -/
def placesAlong (from_ : Place) : List (List Char) → List Place
  | [] => [from_]
  | s :: ss => from_ :: placesAlong (FileStore.reached from_ s) ss

/-- The places that a path leads through from the current directory, its own place last. -/
def placesOf (current : Place) (p : Path) : List Place :=
  match Path.segmentsOf p.text.toList with
  | [] :: rest => placesAlong [] rest
  | segments => placesAlong current segments

/-- The places that a call must look at: all those that its inputs lead through. -/
def placesToList (current : Place) (o : Options) : List Place :=
  ((o.inputs current).flatMap (placesOf current)).eraseDups

/-- The places of the files that a call may read. -/
def placesToRead (current : Place) (o : Options) : List Place :=
  ((o.inputs current).filterMap fun p => (placesOf current p).getLast?).eraseDups

end FacetQuery.CommandLine

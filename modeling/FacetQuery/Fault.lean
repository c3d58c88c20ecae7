import FacetQuery.FileStore
import FacetQuery.Query.Assembly
import FacetQuery.Selection.Mismatch
import FacetQuery.Text.Quoted

/-!
# `FacetQuery.Fault` — why an operation failed

A fault names its cause; what a user is told is one function of it (`Fault.message`). The only fault
that is no failure of the input is an empty result.
-/

namespace FacetQuery

/-- What is wrong with the settings. -/
inductive SettingsFault where
  /-- The word can be no facet name. -/
  | facetName (word : String)
  /-- The word can be no file extension. -/
  | extension (word : String)
  /-- The settings file is missing. -/
  | missingFile (path : Path)
  /-- The settings file is not well formed. -/
  | malformedFile (path : Path)
  /-- The key of an override is not well formed. -/
  | malformedKey (key : String)
  /-- The value of a setting cannot be turned into what the setting holds. -/
  | unsuitable (key : String)
  deriving DecidableEq, Inhabited

/-- The fault in words. -/
def SettingsFault.message : SettingsFault → String
  | facetName w => "'" ++ w ++ "' can never name a facet"
  | «extension» w => "'" ++ w ++ "' is not a valid file extension"
  | missingFile p => "settings file " ++ Text.quoted p.text ++ " not found"
  | malformedFile p => "settings file " ++ Text.quoted p.text ++ " is not well formed"
  | malformedKey k => "'" ++ k ++ "' is not a settings key"
  | unsuitable k => "the value of '" ++ k ++ "' does not fit the setting"

/-- What is broken when a step is taken out of order or a stream cannot be built. -/
inductive Breach where
  | stream (v : Violation)
  | notParsed (path : Path)
  | notTranslated (path : Path)
  deriving DecidableEq, Inhabited

/-- The breach in words. -/
def Breach.message : Breach → String
  | stream (.nullEvent k n) =>
      "Null node in stream (node " ++ toString k ++ " of " ++ toString n ++ ")"
  | stream .unterminated => "node stream ended without a closing Stop"
  | notParsed p => p.text ++ " has no successfully parsed node stream"
  | notTranslated p => p.text ++ " was not translated"

/-- The cause of a failure. -/
inductive Fault where
  | settings (f : SettingsFault)
  | grammar (m : Selection.Mismatch)
  | invariant (b : Breach)
  | emptyResult
  | io (path : Path) (f : FileFault)
  /-- The staging file for an output could not be made. -/
  | staging (path : Path) (f : FileFault)
  | outputExists (path : Path)
  /-- A JSON text is not of the form that was asked for. -/
  | form
  deriving DecidableEq, Inhabited

namespace Fault

/-- The fault in words. -/
def message : Fault → String
  | settings f => "Config error: " ++ f.message
  | grammar m => "Grammar mismatch: " ++ m.message
  | invariant b => "Internal invariant violated: " ++ b.message
  | emptyResult => "Empty result: no facets and no requests"
  | io p f => "I/O error on " ++ Text.quoted p.text ++ ": " ++ f.message
  | staging p f => "I/O error on " ++ Text.quoted p.text ++ ": " ++ f.message
  | outputExists p => "Output already exists: " ++ Text.quoted p.text
  | form => "Serialization error: the text does not have the form asked for"

/-- Whether the fault is a mere notice: the input is fine and holds nothing. -/
def isInformational : Fault → Bool
  | emptyResult => true
  | _ => false

end Fault

end FacetQuery

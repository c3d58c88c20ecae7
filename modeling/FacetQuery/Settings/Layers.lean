import FacetQuery.Settings
import FacetQuery.Settings.KeyPath
import FacetQuery.Text.Lower
import FacetQuery.Text.Utf8
import FacetQuery.Toml.Document

/-!
# `FacetQuery.Settings.Layers` — settings from files, the environment and overrides

Settings are layered over the defaults: each layer, in the order added, puts its values over those of the
layers below; overrides are put over all layers, wherever they were added, and the last override of a
place counts. Only what is left in the end is turned into settings. Names to exclude that were given one
by one are added behind the list that the layers decide, unless they are in it already; then the settings
are validated.
-/

namespace FacetQuery

/-- A source of settings. -/
inductive Layer where
  /-- A settings file; one that is not required may be missing. -/
  | file (path : Path) (required : Bool)
  /-- The variables of the environment that start with this word and an underscore. -/
  | environment (head : String)
  deriving DecidableEq, Inhabited

/-- The layers of settings, in the order added, with what is put over and added to them. -/
structure Layers where
  layers : List Layer
  overrides : List (KeyPath × SettingValue)
  extraExclusions : List String

namespace Layers

instance : Inhabited Layers := ⟨⟨[], [], []⟩⟩

/-- The defaults alone. -/
def defaults : Layers := ⟨[], [], []⟩

/-- With one more layer on top. -/
def add (ls : Layers) (l : Layer) : Layers := { ls with layers := ls.layers ++ [l] }

/-- With a value put over whatever the layers give for a key; an earlier override of the same key no
    longer counts. -/
def override (ls : Layers) (key : String) (v : SettingValue) : Except SettingsFault Layers :=
  match KeyPath.ofString? key with
  | some p => .ok { ls with overrides := ls.overrides.filter (·.1 ≠ p) ++ [(p, v)] }
  | none => .error (.malformedKey key)

/-- With names to exclude besides those that the layers give. -/
def exclude (ls : Layers) (names : List String) : Layers :=
  { ls with extraExclusions := ls.extraExclusions ++ names }

/-! ## Reading layers -/

/-- The members that hold where no layer says otherwise. -/
def defaultMembers : List (String × SettingValue) :=
  [("exclude", .list []), ("workers", .integer 0), ("overwrite", .bool true),
    ("format", .text "text")]

/-- The paths under which a settings file is looked for: the very name, and the name with `.toml` added.
    Both are followed from the root on. -/
def candidates (current : Place) (p : Path) : List Path :=
  [p.absolute current, (p.absolute current).addExtension "toml"]

/-- The bytes of a settings file: of the first of its candidates that is a file. -/
def fileBytes? (store : FileStore) (p : Path) : Option ByteArray :=
  (candidates store.current p).findSome? store.bytes?

/-- The members that a settings file gives. -/
def readFile (store : FileStore) (p : Path) (required : Bool) :
    Except SettingsFault (List (String × SettingValue)) :=
  match fileBytes? store p with
  | none => if required then .error (.missingFile p) else .ok []
  | some bytes =>
      match Toml.parse? (Text.decodeLossy (Text.dropByteOrderMark bytes.toList)) with
      | some ms => .ok ms
      | none => .error (.malformedFile p)

/-- The value that a variable of the environment stands for: a truth value, an integer or a number if it
    is written as one; for the excluded names a list between commas; else a text. -/
def variableValue (key value : String) : SettingValue :=
  let word := Text.lower value
  if word = "true" then .bool true
  else if word = "false" then .bool false
  else
    match int64? value.toList with
    | some i => .integer i
    | none =>
        match Binary64.ofText? value.toList with
        | some x => .float x
        | none =>
            if key = "exclude" then
              .list ((value.toList.splitOn ',').map fun name => .text (String.ofList name))
            else .text value

/-- The members that the environment gives: the rest of each name behind the head, in small letters, with
    the value of its variable. -/
def readEnvironment (env : List (String × String)) (head : String) :
    List (String × SettingValue) :=
  let start := (Text.lower (head ++ "_")).toList
  env.filterMap fun (name, value) =>
    let letters := (Text.lower name).toList
    if start.isPrefixOf letters then
      let key := String.ofList (letters.drop start.length)
      some (key, variableValue key value)
    else none

/-- The members that a layer gives. -/
def readLayer (store : FileStore) (env : List (String × String)) :
    Layer → Except SettingsFault (List (String × SettingValue))
  | .file p required => readFile store p required
  | .environment head => .ok (readEnvironment env head)

/-- The table after a member was put over it. A key that names a place goes there, and any other key is
    taken as it is. -/
def putMember (ms : List (String × SettingValue)) (m : String × SettingValue) :
    List (String × SettingValue) :=
  ((KeyPath.ofString? m.1).getD (.ofName m.1)).put m.2 ms

/-- The table after all members of a layer were put over it. -/
def putLayer (ms layer : List (String × SettingValue)) : List (String × SettingValue) :=
  layer.foldl putMember ms

/-! ## The result -/

/-- A list with names added at its end, each unless it is there already. -/
def addMissing (names extra : List String) : List String :=
  extra.foldl (fun ns n => if ns.contains n then ns else ns ++ [n]) names

/-- The table that layers and overrides make up. -/
def table (ls : Layers) (store : FileStore) (env : List (String × String)) :
    Except SettingsFault (List (String × SettingValue)) := do
  let given ← ls.layers.mapM (readLayer store env)
  return ls.overrides.foldl (fun ms (p, v) => p.put v ms) (given.foldl putLayer defaultMembers)

/-- The settings that the layers make up, before they are validated. -/
def decided (ls : Layers) (store : FileStore) (env : List (String × String)) :
    Except SettingsFault Settings := do
  let s ← Settings.ofMembers (← ls.table store env)
  return { s with exclude := addMissing s.exclude ls.extraExclusions }

/-- The settings that the layers make up, if they are valid. -/
def load (ls : Layers) (store : FileStore) (env : List (String × String)) :
    Except SettingsFault Settings := do
  let s ← ls.decided store env
  s.validate
  return s

end Layers

end FacetQuery

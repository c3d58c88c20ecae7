import FacetQuery.CommandLine.Surroundings
import FacetQuery.Text.Utf8

/-!
# `FacetQuery.Main` — the program

Takes in the environment and the files that the call sees, asks `CommandLine.run` what the call leaves
behind, and brings that about: files, streams and exit code. Nothing is decided here.
-/

namespace FacetQuery.CommandLine

/-- The store with what stands at a place, and with the names in it if it is a directory. Files are
    entered without their bytes. -/
def survey (store : FileStore) (place : Place) : IO FileStore := do
  let directory := (← IO.currentDir) / textOfPlace place
  if !(← directory.isDir) then return store
  let mut found := store.addDirectory place
  for entry in ← directory.readDir do
    let inside := place ++ [entry.fileName]
    if (found.get? inside).isNone then
      if ← (directory / entry.fileName).isDir then found := found.addDirectory inside
      else found := found.addFile inside .empty
  return found

/-- The store with the bytes of a file that it holds without them. -/
def load (store : FileStore) (place : Place) : IO FileStore := do
  match store.get? place with
  | some (.file _) =>
      try return store.addFile place (← IO.FS.readBinFile (textOfPlace place))
      catch _ => return store.erase place
  | _ => return store

/-- Writes a file beside its place and moves it there. -/
def save (place : Place) (bytes : ByteArray) : IO Unit := do
  let staging := textOfPlace (place.dropLast ++ [FileStore.stagingName 0])
  IO.FS.writeBinFile staging bytes
  IO.FS.rename staging (textOfPlace place)

/-- The variables of the environment. -/
def environment : IO (List (String × String)) := do
  try return variablesOf (Text.decodeLossy (← IO.FS.readBinFile "/proc/self/environ").toList)
  catch _ => return []

/-- What the call sees of the files. -/
def surroundings (arguments : List String) : IO FileStore := do
  let current := placeOfText (← IO.currentDir).toString
  let mut store := FileStore.atDirectory current
  if let .ok o := Options.ofArguments arguments then
    for place in placesToList current o do
      store ← survey store place
    for place in placesToRead current o do
      store ← load store place
  return store

end FacetQuery.CommandLine

open FacetQuery.CommandLine in
/-- Runs a call of the program. -/
def main (arguments : List String) : IO UInt32 := do
  let store ← surroundings arguments
  let finished := run (← environment) store arguments
  for (place, bytes) in store.changes finished.store do
    if let some bytes := bytes then save place bytes
  (← IO.getStderr).putStr finished.stderr
  (← IO.getStdout).putStr finished.stdout
  return finished.code.toUInt32

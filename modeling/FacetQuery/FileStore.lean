import FacetQuery.Path

/-!
# `FacetQuery.FileStore` — files and directories as a value

A store maps places to entries. A place is the list of names that leads to it from the root; a path is
resolved from the current directory segment by segment, and every segment that is entered must be a
directory. No operation here touches a disk: reading answers from the store, writing returns a new one.

Files and directories are all that there is: links, symbolic or hard, are left out. So a file has one place,
and two paths name one file exactly when they resolve to one place. All that is said of which files a run
keeps or changes rests on this.

## Contents
- `FileStore` with `get?` and the map laws of `insert` and `erase`.
- `addFile`, `addDirectory` and `changes`, to fill a store and to tell two stores apart.
- `resolve`, the place that a path names, and `read`, the text of a file.
-/

namespace FacetQuery

/-- The names that lead to a place from the root. -/
abbrev Place := List String

/-- The path from the root on, where it is followed from a place. -/
def Path.absolute (p : Path) (from_ : Place) : Path :=
  if p.text.toList.head? = some '/' then p
  else ⟨String.ofList ('/' :: Path.joinSegments (from_.map String.toList ++ [p.text.toList]))⟩

/-- What a place may hold. -/
inductive Entry where
  | file (bytes : ByteArray)
  | directory

instance : Inhabited Entry := ⟨.directory⟩

/-- Why the files refuse an operation. -/
inductive FileFault where
  | notFound | isADirectory | notADirectory | exists | busy
  | nulInPath | invalidPath | nameTooLong | invalidText
  deriving DecidableEq, Inhabited

namespace FileFault

/-- The class that a fault belongs to. -/
def kind : FileFault → String
  | notFound => "NotFound"
  | isADirectory => "IsADirectory"
  | notADirectory => "NotADirectory"
  | «exists» => "AlreadyExists"
  | busy => "ResourceBusy"
  | nulInPath | invalidPath => "InvalidInput"
  | nameTooLong => "InvalidFilename"
  | invalidText => "InvalidData"

/-- The fault in the words of the system. -/
def message : FileFault → String
  | notFound => "No such file or directory (os error 2)"
  | isADirectory => "Is a directory (os error 21)"
  | notADirectory => "Not a directory (os error 20)"
  | «exists» => "File exists (os error 17)"
  | busy => "Device or resource busy (os error 16)"
  | nulInPath => "file name contained an unexpected NUL byte"
  | invalidPath => "Invalid argument (os error 22)"
  | nameTooLong => "File name too long (os error 36)"
  | invalidText => "stream did not contain valid UTF-8"

end FileFault

/-- Files and directories, with the directory from which relative paths start. The root is always a
    directory and has no entry of its own. -/
structure FileStore where
  current : Place
  entries : List (Place × Entry)
  deriving Inhabited

namespace FileStore

/-! ## The map -/

/-- What stands at a place. -/
def get? (s : FileStore) (at_ : Place) : Option Entry :=
  if at_ = [] then some .directory else s.entries.lookup at_

/-- The store without what stood at a place. -/
def erase (s : FileStore) (at_ : Place) : FileStore :=
  { s with entries := s.entries.filter (·.1 ≠ at_) }

/-- The store with an entry put at a place, in place of what stood there. -/
def insert (s : FileStore) (at_ : Place) (e : Entry) : FileStore :=
  { s with entries := s.entries.filter (·.1 ≠ at_) ++ [(at_, e)] }

theorem lookup_filter_ne (es : List (Place × Entry)) (a b : Place) :
    (es.filter (·.1 ≠ a)).lookup b = if b = a then none else es.lookup b := by
  induction es with
  | nil => simp
  | cons e es ih =>
      obtain ⟨p, v⟩ := e
      by_cases hp : p = a
      · subst hp
        simp only [ne_eq, not_true_eq_false, decide_false, Bool.false_eq_true, not_false_eq_true,
          List.filter_cons_of_neg, ih, List.lookup_cons]
        by_cases hb : b = p
        · simp [hb]
        · have : (b == p) = false := by simp [hb]
          simp [hb, this]
      · rw [List.filter_cons_of_pos (by simpa using hp), List.lookup_cons, List.lookup_cons, ih]
        by_cases hb : b = p
        · subst hb
          simp [hp]
        · have : (b == p) = false := by simp [hb]
          simp [this]

theorem get?_erase (s : FileStore) (a b : Place) (h : a ≠ []) :
    (s.erase a).get? b = if b = a then none else s.get? b := by
  unfold get? erase
  by_cases hb : b = []
  · subst hb
    simp [Ne.symm h]
  · simp only [hb, if_false]
    exact lookup_filter_ne s.entries a b

theorem get?_insert (s : FileStore) (a b : Place) (e : Entry) (h : a ≠ []) :
    (s.insert a e).get? b = if b = a then some e else s.get? b := by
  unfold get? insert
  by_cases hb : b = []
  · subst hb
    simp [Ne.symm h]
  · simp only [hb, if_false, List.lookup_append, lookup_filter_ne]
    by_cases hba : b = a
    · simp [hba]
    · have : (b == a) = false := by simp [hba]
      simp [hba, this, List.lookup_cons]

/-- Of two entries put at one place only the second counts. -/
theorem insert_insert (s : FileStore) (a : Place) (d e : Entry) :
    (s.insert a d).insert a e = s.insert a e := by
  simp [insert, List.filter_append, List.filter_filter]

/-- What is put where nothing stood leaves no trace once it is gone. -/
theorem erase_insert {s : FileStore} {a : Place} (h : s.get? a = none) (e : Entry) :
    (s.insert a e).erase a = s := by
  have hlookup : s.entries.lookup a = none := by
    unfold get? at h
    split at h
    · exact nomatch h
    · exact h
  have hkept : s.entries.filter (·.1 ≠ a) = s.entries := by
    refine List.filter_eq_self.mpr fun entry hentry => ?_
    have hne := List.lookup_eq_none_iff.mp hlookup entry hentry
    exact decide_eq_true (bne_iff_ne.mp hne).symm
  show FileStore.mk s.current ((s.entries.filter (·.1 ≠ a) ++ [(a, e)]).filter (·.1 ≠ a)) = s
  rw [hkept, List.filter_append, hkept]
  simp

/-! ## Filling a store -/

/-- The store with a directory at a place, and at every place on the way there where nothing stands. -/
def addDirectory (s : FileStore) (at_ : Place) : FileStore :=
  (List.range (at_.length + 1)).foldl
    (fun s n => if (s.get? (at_.take n)).isSome then s else s.insert (at_.take n) .directory) s

/-- The store with a file at a place, and with directories on the way there. -/
def addFile (s : FileStore) (at_ : Place) (bytes : ByteArray) : FileStore :=
  (s.addDirectory at_.dropLast).insert at_ (.file bytes)

/-- The store that holds nothing but the current directory. -/
def atDirectory (current : Place) : FileStore := addDirectory ⟨current, []⟩ current

/-- The bytes of the file at a place, if a file stands there. -/
def fileAt? (s : FileStore) (at_ : Place) : Option ByteArray :=
  match s.get? at_ with
  | some (.file bytes) => some bytes
  | _ => none

/-- The files in which `after` differs from `s`, with their new bytes, or none if they are gone. -/
def changes (s after : FileStore) : List (Place × Option ByteArray) :=
  let places := (s.entries ++ after.entries).map (·.1)
  places.eraseDups.filterMap fun p =>
    if s.fileAt? p == after.fileAt? p then none else some (p, after.fileAt? p)

/-! ## Resolving paths -/

/-- The place that a segment leads to from a directory. -/
def reached (from_ : Place) (segment : List Char) : Place :=
  if segment = [] ∨ segment = ['.'] then from_
  else if segment = ['.', '.'] then from_.dropLast
  else from_ ++ [String.ofList segment]

/-- How many bytes a text takes. -/
def byteCount (text : List Char) : Nat := (String.ofList text).utf8ByteSize

/-- How many bytes a name may take. -/
def nameLimit : Nat := 255

/-- How many bytes a path may take. -/
def pathLimit : Nat := 4095

/-- Follows one segment; only a directory can be left by one, and it knows no name that is too long. -/
def enter (s : FileStore) (from_ : Place) (segment : List Char) : Except FileFault Place :=
  match s.get? from_ with
  | none => .error .notFound
  | some (.file _) => .error .notADirectory
  | some .directory =>
      if nameLimit < byteCount segment then .error .nameTooLong else .ok (reached from_ segment)

/-- The place that a text names; what is there, if anything, is not looked at. -/
def resolve (s : FileStore) (text : List Char) : Except FileFault Place :=
  if text.contains '\x00' then .error .nulInPath
  else if pathLimit < byteCount text then .error .nameTooLong
  else
    match Path.segmentsOf text with
    | [[]] => .error .notFound
    | [] :: rest => rest.foldlM s.enter []
    | segments => segments.foldlM s.enter s.current

/-- The text of the file that a path names. -/
def read (s : FileStore) (p : Path) : Except FileFault String := do
  match s.get? (← s.resolve p.text.toList) with
  | none => .error .notFound
  | some .directory => .error .isADirectory
  | some (.file bytes) =>
      match String.fromUTF8? bytes with
      | some text => .ok text
      | none => .error .invalidText

/-- The bytes of the file that a path names, if it names a file. -/
def bytes? (s : FileStore) (p : Path) : Option ByteArray :=
  match s.resolve p.text.toList with
  | .ok place => s.fileAt? place
  | .error _ => none

end FileStore

end FacetQuery

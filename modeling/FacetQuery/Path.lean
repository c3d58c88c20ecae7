/-!
# `FacetQuery.Path` — paths as texts

A path is a text of segments between slashes. Two paths are the same when their components agree: empty
segments and `.` are passed over, except that a leading `.` counts; `..` is a component of its own. Names that
are not UTF-8 are left out: a system may have such names, but they are no texts, so no `Path` holds one.

The file name is the last component unless that is `..`. Its extension is what follows its last dot,
unless that dot is its first character. `Path.withExtension` replaces the extension: it keeps the text up
to the end of the file stem and drops what followed the file name.
-/

namespace FacetQuery

/-- A path as it is written. -/
structure Path where
  text : String
  deriving DecidableEq, Inhabited

namespace Path

/-! ## Segments and components -/

/-- The pieces of a text between slashes; there is always at least one. -/
def segmentsOf : List Char → List (List Char)
  | [] => [[]]
  | c :: cs =>
      if c = '/' then [] :: segmentsOf cs
      else
        match segmentsOf cs with
        | s :: ss => (c :: s) :: ss
        | [] => [[c]]

/-- The text of segments with a slash between any two. -/
def joinSegments : List (List Char) → List Char
  | [] => []
  | [s] => s
  | s :: ss => s ++ '/' :: joinSegments ss

theorem segmentsOf_ne_nil (cs : List Char) : segmentsOf cs ≠ [] := by
  cases cs with
  | nil => simp [segmentsOf]
  | cons c cs =>
      unfold segmentsOf
      split
      · simp
      · split <;> simp

/-- Cutting a text at its slashes loses nothing. -/
theorem joinSegments_segmentsOf (cs : List Char) : joinSegments (segmentsOf cs) = cs := by
  induction cs with
  | nil => rfl
  | cons c cs ih =>
      unfold segmentsOf
      split
      · next h =>
          obtain ⟨s, ss, hs⟩ := List.exists_cons_of_ne_nil (segmentsOf_ne_nil cs)
          rw [hs] at ih ⊢
          simp [joinSegments, ih, h]
      · split
        · next s ss hs =>
            rw [hs] at ih
            cases ss with
            | nil => simpa [joinSegments] using ih
            | cons t ts => simpa [joinSegments] using ih
        · next hs => exact absurd hs (segmentsOf_ne_nil cs)

/-- A component of a path. -/
inductive Component where
  | root
  | current
  | parent
  | named (name : List Char)
  deriving DecidableEq, Inhabited

/-- The component that a segment makes inside a path; none if it is passed over. -/
def Component.ofSegment? : List Char → Option Component
  | [] => none
  | ['.'] => none
  | ['.', '.'] => some .parent
  | name => some (.named name)

/-- The components of the segments of a path. -/
def componentsOf : List (List Char) → List Component
  | [] => []
  | [[]] => []
  | [] :: rest => .root :: rest.filterMap Component.ofSegment?
  | ['.'] :: rest => .current :: rest.filterMap Component.ofSegment?
  | segments => segments.filterMap Component.ofSegment?

/-- The components of a path. -/
def components (p : Path) : List Component := componentsOf (segmentsOf p.text.toList)

/-- Whether two paths have the same components. -/
def same (p q : Path) : Bool := p.components == q.components

/-! ## The file name -/

/-- Where the file name stands in a text: the segments before it, the name, and whether anything was
    passed over behind it. -/
structure Located where
  before : List (List Char)
  name : List Char
  followed : Bool
  deriving DecidableEq, Inhabited

/-- Whether a segment inside a path is passed over. -/
def isPassedOver (segment : List Char) : Bool := segment == [] || segment == ['.']

/-- Finds the file name, if the last component is a name. -/
def locate? (p : Path) : Option Located :=
  let reversed := (segmentsOf p.text.toList).reverse
  let kept := reversed.dropWhile isPassedOver
  match kept with
  | [] => none
  | ['.', '.'] :: _ => none
  | name :: before => some ⟨before.reverse, name, kept.length < reversed.length⟩

/-- The file name, if there is one. -/
def fileName? (p : Path) : Option String := p.locate?.map fun l => String.ofList l.name

/-- A file name cut at its last dot: the stem, and the extension if it has one. -/
def splitName (name : List Char) : List Char × Option (List Char) :=
  let tail := (name.reverse.takeWhile (· ≠ '.')).reverse
  let head := name.take (name.length - tail.length - 1)
  if tail.length = name.length ∨ head = [] then (name, none) else (head, some tail)

/-- The extension of the file name. -/
def extension? (p : Path) : Option (List Char) := p.locate?.bind fun l => (splitName l.name).2

/-- Whether the file name has exactly this extension. -/
def hasExtension (p : Path) (ext : String) : Bool := p.extension? == some ext.toList

/-! ## Replacing the extension -/

/-- An extension behind its dot; the empty one has none. -/
def dotted (ext : List Char) : List Char := if ext = [] then [] else '.' :: ext

/-- The path cut behind the stem of its file name, with an extension added. A path without a file name
    stays as it is. -/
def setExtension (p : Path) (ext : String) : Path :=
  match p.locate? with
  | none => p
  | some l =>
      ⟨String.ofList (joinSegments (l.before ++ [(splitName l.name).1 ++ dotted ext.toList]))⟩

/-- The path with its extension replaced, or with one added if it has none. If the stem is a dot of its own
    and nothing follows the name, the path is cut behind the dot of the old extension: what is left has no
    file name that could take the new one. -/
def withExtension (p : Path) (ext : String) : Path :=
  match p.locate? with
  | none => p
  | some l =>
      if (splitName l.name).1 = ['.'] ∧ l.followed = false then
        ⟨String.ofList (joinSegments (l.before ++ [['.', '.']]))⟩
      else p.setExtension ext

/-- The path with an extension added to its file name, whether or not that has one. What was passed over
    behind a name with an extension stays, and the new one is then put behind a name of its own. -/
def addExtension (p : Path) (ext : String) : Path :=
  if p.extension?.isSome then setExtension ⟨p.text ++ ".placeholder"⟩ ext else p.setExtension ext

/-- Whether a text may be an extension at all: it must not hold a slash. -/
def isExtension (ext : String) : Bool := !ext.toList.contains '/'

/-! ## The directory of a path -/

/-- The directory that a path lies in, as a text: what is in front of its last component without what is
    passed over there, and the current directory if that is nothing. -/
def directoryText (p : Path) : List Char :=
  match (segmentsOf p.text.toList).reverse.dropWhile isPassedOver with
  | [] => ['.']
  | _ :: before =>
      match before.dropWhile isPassedOver with
      | [] => if p.text.toList.head? = some '/' then ['/'] else ['.']
      | kept => joinSegments kept.reverse

end Path

end FacetQuery

import FacetQuery.Proofs.Path.Extension

/-!
# `FacetQuery.Proofs.Path.Outputs` — where an output lies, and which inputs share one

A path with a file name is the directory it lies in, that name, and nothing that counts behind it
(`segments_of_locate?`, `components_of_locate?`). To replace the extension is to keep the directory and the
stem, so outputs are the same exactly if directories and stems are, and an output is its own input exactly if
the input has the extension already.

There is one exception. A name whose stem is a single dot, such as `..txt`, is cut behind that dot's
neighbour if nothing follows it in the text, and what is left, `..`, is no file name and takes no extension
(`Collapses`). If something follows, as in `..txt/`, the name is replaced like any other; but then nothing
follows the new name, so replacing the extension once more makes `..` of it.

## Contents
- `parent` and `stem?`, and a path in terms of its file name.
- `splitName_cases`: how a name is cut at its last dot.
- `Collapses`, and `withExtension` on paths that do and that do not.
- `outputs_of_valid`, and an output that lost its file name.
-/

namespace FacetQuery

namespace Path

/-! ## Directory, name and stem -/

/-- The components of the directory that a path lies in. -/
def parent (p : Path) : List Component := p.components.dropLast

/-- The stem of the file name, if there is one. -/
def stem? (p : Path) : Option (List Char) := p.locate?.map fun l => (splitName l.name).1

theorem same_iff {p q : Path} : same p q = true ↔ p.components = q.components := beq_iff_eq

/-- The segments of a path with a file name: those in front of it, the name, and some that are passed over. -/
theorem segments_of_locate? {p : Path} {l : Located} (h : p.locate? = some l) :
    ∃ trail, segmentsOf p.text.toList = l.before ++ l.name :: trail ∧
      (∀ s ∈ trail, isPassedOver s = true) ∧ IsName l.name ∧ (l.followed = false ↔ trail = []) := by
  unfold locate? at h
  simp only at h
  have hcut := List.takeWhile_append_dropWhile (p := isPassedOver)
    (l := (segmentsOf p.text.toList).reverse)
  have hpassed : ∀ s ∈ (segmentsOf p.text.toList).reverse.takeWhile isPassedOver,
      isPassedOver s = true := List.all_eq_true.mp List.all_takeWhile
  have hkept := List.head?_dropWhile_not isPassedOver (segmentsOf p.text.toList).reverse
  split at h
  · exact nomatch h
  · exact nomatch h
  · next name before hparent hname =>
      cases h
      rw [hname] at hcut hkept
      have hnot : isPassedOver name = false := by simpa using hkept
      refine ⟨((segmentsOf p.text.toList).reverse.takeWhile isPassedOver).reverse, ?_, ?_, ?_, ?_⟩
      · have hreverse := congrArg List.reverse hcut
        rw [List.reverse_append, List.reverse_cons, List.reverse_reverse, List.append_assoc,
          List.singleton_append] at hreverse
        exact hreverse.symm
      · intro s hs
        exact hpassed s (List.mem_reverse.mp hs)
      · simp only [isPassedOver, Bool.or_eq_false_iff, beq_eq_false_iff_ne] at hnot
        refine ⟨hnot.1, hnot.2, fun hdots => ?_⟩
        subst hdots
        exact hparent rfl
      · have hlength := congrArg List.length hcut
        rw [List.length_append] at hlength
        rw [hname, decide_eq_false_iff_not, List.reverse_eq_nil_iff, ← List.length_eq_zero_iff]
        omega

/-- The components of the segments of a directory. -/
def directoryOf (before : List (List Char)) : List Component := componentsOf (before ++ [[]])

/-- Segments that are passed over make no components. -/
theorem filterMap_passedOver {trail : List (List Char)} (h : ∀ s ∈ trail, isPassedOver s = true) :
    trail.filterMap Component.ofSegment? = [] := by
  refine List.filterMap_eq_nil_iff.mpr fun s hs => ?_
  have hs := h s hs
  simp only [isPassedOver, Bool.or_eq_true, beq_iff_eq] at hs
  rcases hs with rfl | rfl <;> rfl

theorem ofSegment?_nil : Component.ofSegment? [] = none := rfl

/-- Segments of which the first has no rule of its own. -/
theorem componentsOf_cons {s : List Char} (hs : isPassedOver s = false) (ss : List (List Char)) :
    componentsOf (s :: ss) = (s :: ss).filterMap Component.ofSegment? := by
  simp only [isPassedOver, Bool.or_eq_false_iff, beq_eq_false_iff_ne] at hs
  rw [componentsOf]
  · exact fun h => absurd h (List.cons_ne_nil s ss)
  · exact fun h => absurd (List.cons.inj h).1 hs.1
  · exact fun rest h => absurd (List.cons.inj h).1 hs.1
  · exact fun rest h => absurd (List.cons.inj h).1 hs.2

/-- An empty first segment with others behind it stands for the root. -/
theorem componentsOf_root {ss : List (List Char)} (h : ss ≠ []) :
    componentsOf ([] :: ss) = .root :: ss.filterMap Component.ofSegment? := by
  obtain ⟨s, ss, rfl⟩ := List.exists_cons_of_ne_nil h
  rfl

/-- Segments that lead to a component are those of its directory and that component. -/
theorem componentsOf_append {before trail : List (List Char)} {s : List Char} {c : Component}
    (hs : isPassedOver s = false) (hc : Component.ofSegment? s = some c)
    (htrail : ∀ t ∈ trail, isPassedOver t = true) :
    componentsOf (before ++ s :: trail) = directoryOf before ++ [c] := by
  have hlast (front : List (List Char)) : (front ++ s :: trail).filterMap Component.ofSegment? =
      (front ++ [[]]).filterMap Component.ofSegment? ++ [c] := by
    rw [List.filterMap_append, List.filterMap_append, List.filterMap_cons, hc,
      filterMap_passedOver htrail, List.filterMap_cons, ofSegment?_nil, List.filterMap_nil,
      List.append_nil]
  cases before with
  | nil => rw [List.nil_append, componentsOf_cons hs]; exact hlast []
  | cons b before =>
      cases hb : isPassedOver b with
      | false =>
          rw [directoryOf, List.cons_append, List.cons_append, componentsOf_cons hb,
            componentsOf_cons hb]
          exact hlast (b :: before)
      | true =>
          -- the first segment stands for the root or for the current directory
          simp only [isPassedOver, Bool.or_eq_true, beq_iff_eq] at hb
          rcases hb with rfl | rfl
          · rw [directoryOf, List.cons_append, List.cons_append, componentsOf_root (by simp),
              componentsOf_root (by simp)]
            exact congrArg (Component.root :: ·) (hlast before)
          · exact congrArg (Component.current :: ·) (hlast before)

theorem IsName.ofSegment? {name : List Char} (h : IsName name) :
    Component.ofSegment? name = some (.named name) := by
  rw [Component.ofSegment?]
  · exact h.1
  · exact h.2.1
  · exact h.2.2

/-- A path with a file name has the components of its directory and the name. -/
theorem components_of_locate? {p : Path} {l : Located} (h : p.locate? = some l) :
    p.components = directoryOf l.before ++ [.named l.name] := by
  obtain ⟨trail, hsegments, htrail, hname, -⟩ := segments_of_locate? h
  rw [components, hsegments]
  exact componentsOf_append hname.isPassedOver hname.ofSegment? htrail

theorem parent_of_locate? {p : Path} {l : Located} (h : p.locate? = some l) :
    p.parent = directoryOf l.before := by
  rw [parent, components_of_locate? h, List.dropLast_concat]

theorem stem?_of_locate? {p : Path} {l : Located} (h : p.locate? = some l) :
    p.stem? = some (splitName l.name).1 := by
  rw [stem?, h]
  rfl

theorem fileName?_eq_none_iff {p : Path} : p.fileName? = none ↔ p.locate? = none :=
  Option.map_eq_none_iff

theorem slash_not_mem_before {p : Path} {l : Located} (h : p.locate? = some l) :
    (∀ s ∈ l.before, '/' ∉ s) ∧ '/' ∉ l.name := by
  obtain ⟨trail, hsegments, -⟩ := segments_of_locate? h
  have hmem {s : List Char} (hs : s ∈ l.before ++ l.name :: trail) : '/' ∉ s :=
    slash_not_mem_of_mem_segmentsOf (hsegments ▸ hs)
  exact ⟨fun s hs => hmem (List.mem_append_left _ hs),
    hmem (List.mem_append_right _ List.mem_cons_self)⟩

/-! ## Names cut at their last dot -/

/-- A name with no dot but perhaps one in front is its own stem; any other is its stem, a dot and the
    extension. -/
theorem splitName_cases (name : List Char) :
    ('.' ∉ name.tail ∧ splitName name = (name, none)) ∨
      ∃ stem ext, name = stem ++ '.' :: ext ∧ stem ≠ [] ∧ '.' ∉ ext ∧
        splitName name = (stem, some ext) := by
  by_cases hdot : '.' ∈ name
  · obtain ⟨ext, front, hreverse, hext⟩ := List.eq_append_cons_of_mem (List.mem_reverse.mpr hdot)
    have hplain : '.' ∉ ext.reverse := fun h => hext (List.mem_reverse.mp h)
    have hname : name = front.reverse ++ '.' :: ext.reverse := by
      rw [← List.reverse_reverse name, hreverse]
      simp
    by_cases hfront : front.reverse = []
    · rw [hfront, List.nil_append] at hname
      refine .inl ⟨by simpa [hname] using hext, ?_⟩
      have htail := takeWhile_reverse_dot [] hplain
      rw [List.nil_append, ← hname] at htail
      unfold splitName
      simp only [htail]
      rw [if_pos (.inr (by simp [hname]))]
    · refine .inr ⟨_, _, hname, hfront, hplain, ?_⟩
      rw [hname]
      exact splitName_append hfront hplain
  · have hall : name.reverse.takeWhile (· ≠ '.') = name.reverse := by
      have hnone : ∀ c ∈ name.reverse, decide (c ≠ '.') = true := fun c hc =>
        decide_eq_true fun h => hdot (h ▸ List.mem_reverse.mp hc)
      have happend : (name.reverse ++ []).takeWhile (· ≠ '.') = name.reverse ++ [].takeWhile (· ≠ '.') :=
        List.takeWhile_append_of_pos hnone
      simpa using happend
    refine .inl ⟨fun h => hdot (List.mem_of_mem_tail h), ?_⟩
    unfold splitName
    simp only [hall, List.reverse_reverse]
    rw [if_pos (.inl trivial)]

/-! ## Names that are lost -/

/-- The path ends in two dots and an extension, of which the first dot is the stem. -/
def Collapses (p : Path) : Prop :=
  ∃ ext, ext ≠ [] ∧ '.' ∉ ext ∧ p.lastSegment = '.' :: '.' :: ext

theorem Collapses.isName {p : Path} (h : p.Collapses) : IsName p.lastSegment := by
  obtain ⟨ext, hne, -, hlast⟩ := h
  rw [hlast]
  exact ⟨by simp, by simp, by simpa using hne⟩

/-- A path collapses iff the stem of its file name is a dot and nothing follows the name. -/
theorem collapses_iff {p : Path} {l : Located} (h : p.locate? = some l) :
    p.Collapses ↔ (splitName l.name).1 = ['.'] ∧ l.followed = false := by
  constructor
  · intro hcollapses
    have hlocated := locate?_of_isName hcollapses.isName
    rw [h] at hlocated
    cases hlocated
    obtain ⟨ext, -, hdot, hlast⟩ := hcollapses
    have hsplit : splitName (['.'] ++ '.' :: ext) = (['.'], some ext) :=
      splitName_append (List.cons_ne_nil _ _) hdot
    rw [hlast]
    exact ⟨congrArg Prod.fst hsplit, rfl⟩
  · rintro ⟨hstem, hfollowed⟩
    obtain ⟨trail, hsegments, -, hname, htrail⟩ := segments_of_locate? h
    have hlast : p.lastSegment = l.name := by
      simp only [lastSegment, hsegments, htrail.mp hfollowed, List.getLast_concat]
    rcases splitName_cases l.name with ⟨-, hsplit⟩ | ⟨stem, ext, heq, -, hdot, hsplit⟩
    · rw [hsplit] at hstem
      exact absurd hstem hname.2.1
    · rw [hsplit] at hstem
      cases hstem
      refine ⟨ext, fun hnil => ?_, hdot, hlast.trans heq⟩
      subst hnil
      exact hname.2.2 heq

theorem Collapses.fileName {p : Path} (h : p.Collapses) : p.fileName? ≠ none := by
  rw [Ne, fileName?_eq_none_iff, locate?_of_isName h.isName]
  exact Option.some_ne_none _

/-! ## Replacing the extension -/

section Replacing

variable {p q : Path} {l : Located} {e : String}

theorem withExtension_of_locate?_none (h : p.locate? = none) : p.withExtension e = p := by
  rw [withExtension, h]

/-- Of a path that collapses the directory is left, with `..` behind it. -/
theorem components_of_collapses (h : p.Collapses) (e : String) :
    (p.withExtension e).components = p.parent ++ [.parent] := by
  have hlocated := locate?_of_isName h.isName
  obtain ⟨hstem, hfollowed⟩ := (collapses_iff hlocated).mp h
  rw [parent_of_locate? hlocated, withExtension, hlocated]
  simp only [hstem, and_self, if_true]
  rw [components, segmentsOf_ofList_joinSegments p.slash_not_mem_leadingSegments (by decide)]
  have hnone : ∀ t ∈ ([] : List (List Char)), isPassedOver t = true := fun t ht => absurd ht List.not_mem_nil
  exact componentsOf_append (by decide) rfl hnone

theorem locate?_of_collapses (h : p.Collapses) (e : String) :
    (p.withExtension e).locate? = none := by
  have hlocated := locate?_of_isName h.isName
  obtain ⟨hstem, hfollowed⟩ := (collapses_iff hlocated).mp h
  refine locate?_of_parent ?_
  rw [withExtension, hlocated]
  simp only [hstem, and_self, if_true]
  exact lastSegment_ofList_joinSegments p.slash_not_mem_leadingSegments (by decide)

/-- A path that does not collapse keeps what stands in front of its name; the name is the stem with the
    extension, and nothing follows it. -/
theorem locate?_withExtension (hext : PlainExtension e.toList) (h : p.locate? = some l)
    (hcollapses : ¬ p.Collapses) : (p.withExtension e).locate? =
      some ⟨l.before, (splitName l.name).1 ++ '.' :: e.toList, false⟩ := by
  obtain ⟨-, -, -, hname, -⟩ := segments_of_locate? h
  obtain ⟨hbefore, hslash⟩ := slash_not_mem_before h
  obtain ⟨hstem, hplain⟩ := splitName_stem hname.1 hslash
  have hwith : p.withExtension e = ⟨String.ofList (joinSegments (l.before ++
      [(splitName l.name).1 ++ '.' :: e.toList]))⟩ := by
    rw [withExtension, h]
    simp only [mt (collapses_iff h).mpr hcollapses, if_false, setExtension, h, dotted, hext.1]
  have hlast : '/' ∉ (splitName l.name).1 ++ '.' :: e.toList := by
    simp [hplain, hext.2.2]
  have hsegments := segmentsOf_ofList_joinSegments hbefore hlast
  rw [hwith]
  rw [locate?_of_isName]
  · simp only [leadingSegments, lastSegment, hsegments, List.dropLast_concat, List.getLast_concat]
  · rw [lastSegment_ofList_joinSegments hbefore hlast]
    exact isName_append hstem hext.1

/-- The components of a path that does not collapse, with the extension replaced. -/
theorem components_withExtension (hext : PlainExtension e.toList) (h : p.locate? = some l)
    (hcollapses : ¬ p.Collapses) : (p.withExtension e).components =
      p.parent ++ [.named ((splitName l.name).1 ++ '.' :: e.toList)] := by
  rw [components_of_locate? (locate?_withExtension hext h hcollapses), parent_of_locate? h]

/-- The stem of a file name can be put in front of the extension and found again. -/
theorem splitName_replaced (hext : PlainExtension e.toList) (h : p.locate? = some l) :
    splitName ((splitName l.name).1 ++ '.' :: e.toList) =
      ((splitName l.name).1, some e.toList) := by
  obtain ⟨-, -, -, hname, -⟩ := segments_of_locate? h
  exact splitName_append (splitName_stem hname.1 (slash_not_mem_before h).2).1 hext.2.1

/-- A file name has the extension iff it is its stem with the extension. -/
theorem hasExtension_iff (hext : PlainExtension e.toList) (h : p.locate? = some l) :
    p.hasExtension e = true ↔ l.name = (splitName l.name).1 ++ '.' :: e.toList := by
  rw [hasExtension, extension?, h, beq_iff_eq, Option.bind_some]
  constructor
  · intro hhas
    rcases splitName_cases l.name with ⟨-, hsplit⟩ | ⟨stem, ext, heq, -, -, hsplit⟩
    · rw [hsplit] at hhas
      exact nomatch hhas
    · rw [hsplit] at hhas ⊢
      cases hhas
      exact heq
  · intro heq
    rw [heq, splitName_replaced hext h]

/-- One path lies in the directory of the other and has its stem, with the extension. -/
structure Replaces (e : String) (o p : Path) : Prop where
  parent : o.parent = p.parent
  stem : o.stem? = p.stem?
  hasExtension : o.hasExtension e = true

theorem replaces_withExtension (hext : PlainExtension e.toList) (h : p.locate? = some l)
    (hcollapses : ¬ p.Collapses) : Replaces e (p.withExtension e) p := by
  have hlocated := locate?_withExtension hext h hcollapses
  have hsplit := splitName_replaced hext h
  refine ⟨?_, ?_, ?_⟩
  · rw [parent_of_locate? hlocated, parent_of_locate? h]
  · rw [stem?_of_locate? hlocated, stem?_of_locate? h, hsplit]
  · rw [hasExtension_iff hext hlocated, hsplit]

/-- An output is its own input iff there is no file name that could take the extension, or it has the
    extension already and does not lose it. -/
theorem same_withExtension_self_iff (hext : PlainExtension e.toList) :
    same (p.withExtension e) p = true ↔
      p.fileName? = none ∨ (p.hasExtension e = true ∧ ¬ p.Collapses) := by
  rw [same_iff, fileName?_eq_none_iff]
  cases h : p.locate? with
  | none => simp [withExtension_of_locate?_none h]
  | some l =>
      have hself : p.components = p.parent ++ [.named l.name] := by
        rw [components_of_locate? h, parent_of_locate? h]
      by_cases hcollapses : p.Collapses
      · rw [components_of_collapses hcollapses, hself]
        simp [hcollapses]
      · rw [components_withExtension hext h hcollapses, hself, hasExtension_iff hext h]
        simp [hcollapses, eq_comm]

/-- Outputs are the same iff directories and stems are, and neither or both lose their names. -/
theorem same_withExtension_iff (hext : PlainExtension e.toList) (hp : p.fileName? ≠ none)
    (hq : q.fileName? ≠ none) : same (p.withExtension e) (q.withExtension e) = true ↔
      p.parent = q.parent ∧ p.stem? = q.stem? ∧ (p.Collapses ↔ q.Collapses) := by
  rw [Ne, fileName?_eq_none_iff, ← Ne, Option.ne_none_iff_exists'] at hp hq
  obtain ⟨l, hl⟩ := hp
  obtain ⟨k, hk⟩ := hq
  have hdot {r : Path} {m : Located} (hm : r.locate? = some m) (hr : r.Collapses) :
      (splitName m.name).1 = ['.'] := ((collapses_iff hm).mp hr).1
  rw [same_iff, stem?_of_locate? hl, stem?_of_locate? hk]
  by_cases hp : p.Collapses <;> by_cases hq : q.Collapses
  · rw [components_of_collapses hp, components_of_collapses hq, hdot hl hp, hdot hk hq]
    simp [hp, hq]
  · rw [components_of_collapses hp, components_withExtension hext hk hq]
    simp [hp, hq]
  · rw [components_withExtension hext hl hp, components_of_collapses hq]
    simp [hp, hq]
  · rw [components_withExtension hext hl hp, components_withExtension hext hk hq]
    simp [hp, hq]

/-- An output keeps its name when its extension is replaced once more, unless its stem is a dot. -/
theorem same_withExtension_twice_iff (hext : PlainExtension e.toList) (h : p.fileName? ≠ none)
    (hcollapses : ¬ p.Collapses) :
    same ((p.withExtension e).withExtension e) (p.withExtension e) = true ↔
      p.stem? ≠ some ['.'] := by
  rw [Ne, fileName?_eq_none_iff, ← Ne, Option.ne_none_iff_exists'] at h
  obtain ⟨l, hl⟩ := h
  have hlocated := locate?_withExtension hext hl hcollapses
  have hreplaces := replaces_withExtension hext hl hcollapses
  have hstem := hreplaces.stem
  rw [stem?_of_locate? hlocated, stem?_of_locate? hl, Option.some_inj] at hstem
  rw [same_withExtension_self_iff hext, fileName?_eq_none_iff, collapses_iff hlocated, hstem,
    stem?_of_locate? hl]
  simp [hlocated, hreplaces.hasExtension]

end Replacing

/-- **Outputs of inputs under a valid extension.** The extension may be put behind any path. A path without a
    file name stays as it is. A path with one has its output in the same directory, with the same stem and
    the extension, and replacing the extension again changes nothing unless the stem is a single dot; but if
    the stem is a single dot and nothing follows the name, the output is `..` in that directory and has no
    file name. An output is the path itself iff the path has no file name, or has the extension and is not
    of that kind. Two paths with file names have one output iff their directories and stems are the same and
    both or neither are of that kind. -/
theorem outputs_of_valid {s : Settings} {e : String} (hs : s.validate = .ok ())
    (he : s.outputExtension = some e ∨ s.inputExtension = some e) :
    Path.isExtension e = true ∧
      (∀ p : Path, p.fileName? = none → p.withExtension e = p) ∧
      (∀ p : Path, p.fileName? ≠ none → ¬ p.Collapses →
        Replaces e (p.withExtension e) p ∧
          (same ((p.withExtension e).withExtension e) (p.withExtension e) = true ↔
            p.stem? ≠ some ['.'])) ∧
      (∀ p : Path, p.Collapses → (p.withExtension e).components = p.parent ++ [.parent] ∧
        (p.withExtension e).fileName? = none) ∧
      (∀ p : Path, same (p.withExtension e) p = true ↔
        p.fileName? = none ∨ (p.hasExtension e = true ∧ ¬ p.Collapses)) ∧
      ∀ p q : Path, p.fileName? ≠ none → q.fileName? ≠ none →
        (same (p.withExtension e) (q.withExtension e) = true ↔
          p.parent = q.parent ∧ p.stem? = q.stem? ∧ (p.Collapses ↔ q.Collapses)) := by
  obtain ⟨-, hout, hin⟩ := Settings.validate_eq_ok_iff.mp hs
  have hext : PlainExtension e.toList := plainExtension_of_isExtension (he.elim (hout e) (hin e))
  refine ⟨by simpa [Path.isExtension] using hext.2.2, fun p hp => ?_, fun p hp hcollapses => ⟨?_, ?_⟩,
    fun p hp => ⟨components_of_collapses hp e, ?_⟩, fun p => same_withExtension_self_iff hext,
    fun p q hp hq => same_withExtension_iff hext hp hq⟩
  · exact withExtension_of_locate?_none (fileName?_eq_none_iff.mp hp)
  · rw [Ne, fileName?_eq_none_iff, ← Ne, Option.ne_none_iff_exists'] at hp
    obtain ⟨l, hl⟩ := hp
    exact replaces_withExtension hext hl hcollapses
  · exact same_withExtension_twice_iff hext hp hcollapses
  · exact fileName?_eq_none_iff.mpr (locate?_of_collapses hp e)

/-- The name is followed by segments that are passed over, and its stem holds a dot. -/
theorem outputs_of_valid_followed :
    ({ Settings.default with outputExtension := some "yaml" }).validate = .ok () ∧
      Replaces "yaml" (withExtension ⟨"runs//sel.v1.txt/./"⟩ "yaml") ⟨"runs//sel.v1.txt/./"⟩ := by
  have hvalid : ({ Settings.default with outputExtension := some "yaml" }).validate = .ok () := rfl
  obtain ⟨-, -, hreplaces, -⟩ := outputs_of_valid hvalid (.inl rfl)
  refine ⟨hvalid, (hreplaces _ (by decide +kernel) ?_).1⟩
  rintro ⟨ext, -, -, hlast⟩
  have hnone : lastSegment ⟨"runs//sel.v1.txt/./"⟩ = [] := by decide +kernel
  exact nomatch hnone.symm.trans hlast

/-- An output that lost its file name: the stem of the input is a dot, and nothing follows. -/
theorem withExtension_loses_name :
    Settings.isExtension "yaml" = true ∧ fileName? ⟨"..txt"⟩ = some "..txt" ∧
      withExtension ⟨"..txt"⟩ "yaml" = ⟨".."⟩ ∧
      hasExtension (withExtension ⟨"..txt"⟩ "yaml") "yaml" = false ∧
      stem? (withExtension ⟨"..txt"⟩ "yaml") ≠ stem? ⟨"..txt"⟩ := by
  decide +kernel

end Path

end FacetQuery

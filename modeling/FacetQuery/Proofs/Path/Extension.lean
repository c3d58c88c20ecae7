import FacetQuery.Settings
import FacetQuery.Path

/-!
# `FacetQuery.Proofs.Path.Extension` — what replacing the extension does to the last segment

The place that a path names is decided by its segments, and its name there by the last one. So the question
whether two paths can meet at one place comes down to their last segments. A path whose extension was
replaced ends in a stem, a dot and the new extension, or else in `..`; and a path that ends in such a way
already is left as it is by the same replacement (`withExtension_eq_self`). A path that meets the output of
another one is therefore its own output.

## Contents
- Segments: cutting and joining are inverse to each other, and `Path.lastSegment`.
- `IsName`, the segments that lead to a new place, and `locate?` on a path that ends in one.
- `splitName` on a stem, a dot and an extension; `withExtension` on the last segment.
-/

namespace FacetQuery

namespace Path

/-! ## Segments -/

theorem segmentsOf_cons_slash (cs : List Char) : segmentsOf ('/' :: cs) = [] :: segmentsOf cs := by
  simp [segmentsOf]

/-- A character that is no slash is put in front of the first segment. -/
theorem segmentsOf_cons_of_ne {c : Char} (hc : c ≠ '/') {cs s : List Char} {ss : List (List Char)}
    (h : segmentsOf cs = s :: ss) : segmentsOf (c :: cs) = (c :: s) :: ss := by
  simp [segmentsOf, hc, h]

/-- A text without a slash is a segment of its own, and one in front of a slash is cut off there. -/
theorem segmentsOf_append_slash {s : List Char} (hs : '/' ∉ s) (cs : List Char) :
    segmentsOf (s ++ '/' :: cs) = s :: segmentsOf cs := by
  induction s with
  | nil => exact segmentsOf_cons_slash cs
  | cons c s ih =>
      have hc : c ≠ '/' := fun h => hs (h ▸ List.mem_cons_self)
      exact segmentsOf_cons_of_ne hc (ih fun h => hs (List.mem_cons_of_mem c h))

theorem segmentsOf_of_not_mem {s : List Char} (hs : '/' ∉ s) : segmentsOf s = [s] := by
  induction s with
  | nil => rfl
  | cons c s ih =>
      have hc : c ≠ '/' := fun h => hs (h ▸ List.mem_cons_self)
      exact segmentsOf_cons_of_ne hc (ih fun h => hs (List.mem_cons_of_mem c h))

/-- Segments that hold no slash are found again in the text that joins them. -/
theorem segmentsOf_joinSegments {ss : List (List Char)} (hne : ss ≠ []) (hs : ∀ s ∈ ss, '/' ∉ s) :
    segmentsOf (joinSegments ss) = ss := by
  induction ss with
  | nil => exact absurd rfl hne
  | cons s ss ih =>
      have hfirst : '/' ∉ s := hs s List.mem_cons_self
      cases ss with
      | nil => exact segmentsOf_of_not_mem hfirst
      | cons t ts =>
          show segmentsOf (s ++ '/' :: joinSegments (t :: ts)) = s :: t :: ts
          rw [segmentsOf_append_slash hfirst]
          rw [ih (List.cons_ne_nil t ts) fun x hx => hs x (List.mem_cons_of_mem s hx)]

theorem slash_not_mem_of_mem_segmentsOf {cs s : List Char} (h : s ∈ segmentsOf cs) : '/' ∉ s := by
  induction cs generalizing s with
  | nil =>
      rw [List.mem_singleton.mp h]
      exact List.not_mem_nil
  | cons c cs ih =>
      by_cases hc : c = '/'
      · subst hc
        rw [segmentsOf_cons_slash] at h
        rcases List.mem_cons.mp h with rfl | h
        · exact List.not_mem_nil
        · exact ih h
      · obtain ⟨t, ts, ht⟩ := List.exists_cons_of_ne_nil (segmentsOf_ne_nil cs)
        rw [segmentsOf_cons_of_ne hc ht] at h
        rcases List.mem_cons.mp h with rfl | h
        · intro hmem
          rcases List.mem_cons.mp hmem with hslash | hmem
          · exact hc hslash.symm
          · exact ih (ht ▸ List.mem_cons_self) hmem
        · exact ih (ht ▸ List.mem_cons_of_mem t h)

/-- The segments of a path in front of its last one. -/
def leadingSegments (p : Path) : List (List Char) := (segmentsOf p.text.toList).dropLast

/-- The last segment of a path. -/
def lastSegment (p : Path) : List Char :=
  (segmentsOf p.text.toList).getLast (segmentsOf_ne_nil _)

theorem segmentsOf_text (p : Path) :
    segmentsOf p.text.toList = p.leadingSegments ++ [p.lastSegment] :=
  (List.dropLast_concat_getLast _).symm

theorem joinSegments_text (p : Path) :
    joinSegments (p.leadingSegments ++ [p.lastSegment]) = p.text.toList := by
  rw [← segmentsOf_text, joinSegments_segmentsOf]

theorem slash_not_mem_lastSegment (p : Path) : '/' ∉ p.lastSegment :=
  slash_not_mem_of_mem_segmentsOf (List.getLast_mem (segmentsOf_ne_nil p.text.toList))

theorem slash_not_mem_leadingSegments (p : Path) : ∀ s ∈ p.leadingSegments, '/' ∉ s :=
  fun _ h => slash_not_mem_of_mem_segmentsOf (List.dropLast_subset _ h)

/-- The segments of a path that was put together from segments. -/
theorem segmentsOf_ofList_joinSegments {ss : List (List Char)} {last : List Char}
    (hs : ∀ s ∈ ss, '/' ∉ s) (hlast : '/' ∉ last) :
    segmentsOf (String.ofList (joinSegments (ss ++ [last]))).toList = ss ++ [last] := by
  rw [String.toList_ofList]
  refine segmentsOf_joinSegments (by simp) fun s h => ?_
  rcases List.mem_append.mp h with h | h
  · exact hs s h
  · rw [List.mem_singleton.mp h]
    exact hlast

theorem lastSegment_ofList_joinSegments {ss : List (List Char)} {last : List Char}
    (hs : ∀ s ∈ ss, '/' ∉ s) (hlast : '/' ∉ last) :
    lastSegment ⟨String.ofList (joinSegments (ss ++ [last]))⟩ = last := by
  simp only [lastSegment, segmentsOf_ofList_joinSegments hs hlast, List.getLast_concat]

theorem joinSegments_concat {ss : List (List Char)} (hne : ss ≠ []) (s : List Char) :
    joinSegments (ss ++ [s]) = joinSegments ss ++ '/' :: s := by
  induction ss with
  | nil => exact absurd rfl hne
  | cons t ts ih =>
      cases ts with
      | nil => rfl
      | cons u us =>
          show t ++ '/' :: joinSegments (u :: us ++ [s]) = (t ++ '/' :: joinSegments (u :: us)) ++ _
          rw [ih (List.cons_ne_nil u us), List.append_assoc, List.cons_append]

/-- The last segment of a text is empty iff the text ends in a slash. -/
theorem lastSegment_eq_nil_iff {p : Path} (hne : p.text.toList ≠ []) :
    p.lastSegment = [] ↔ p.text.toList.getLast? = some '/' := by
  rw [← joinSegments_text]
  by_cases hlead : p.leadingSegments = []
  · have htext := p.joinSegments_text
    rw [hlead] at htext ⊢
    have hlast : p.lastSegment = p.text.toList := htext
    refine ⟨fun h => absurd (hlast ▸ h) hne, fun h => ?_⟩
    exact absurd (List.mem_of_getLast? h) p.slash_not_mem_lastSegment
  · rw [joinSegments_concat hlead]
    refine ⟨fun h => ?_, fun h => ?_⟩
    · rw [h, List.getLast?_concat]
    · by_cases hnil : p.lastSegment = []
      · exact hnil
      · obtain ⟨c, cs, hc⟩ := List.exists_cons_of_ne_nil hnil
        have hlast : (c :: cs).getLast? = some '/' := by simpa [hc, List.getLast?_append] using h
        exact absurd (List.mem_of_getLast? hlast) (hc ▸ p.slash_not_mem_lastSegment)

/-! ## Names -/

/-- A segment that leads from a directory to a place of that name in it. -/
def IsName (segment : List Char) : Prop :=
  segment ≠ [] ∧ segment ≠ ['.'] ∧ segment ≠ ['.', '.']

theorem IsName.isPassedOver {segment : List Char} (h : IsName segment) :
    Path.isPassedOver segment = false := by
  simp [Path.isPassedOver, h.1, h.2.1]

/-- The file name of a path that ends in a name. -/
theorem locate?_of_isName {p : Path} (h : IsName p.lastSegment) :
    p.locate? = some ⟨p.leadingSegments, p.lastSegment, false⟩ := by
  unfold locate?
  simp only [segmentsOf_text, List.reverse_append, List.reverse_cons, List.reverse_nil,
    List.nil_append, List.singleton_append]
  rw [List.dropWhile_cons_of_neg (by simp [h.isPassedOver])]
  split
  · next heq => exact absurd heq (List.cons_ne_nil _ _)
  · next heq => exact absurd (List.cons.inj heq).1 h.2.2
  · next heq =>
      obtain ⟨hname, hbefore⟩ := List.cons.inj heq
      rw [← hname, ← hbefore]
      simp

/-- A path that ends in `..` has no file name. -/
theorem locate?_of_parent {p : Path} (h : p.lastSegment = ['.', '.']) : p.locate? = none := by
  unfold locate?
  simp only [segmentsOf_text, h, List.reverse_append, List.reverse_cons, List.reverse_nil,
    List.nil_append, List.singleton_append]
  rw [List.dropWhile_cons_of_neg (by decide)]
  rfl

/-! ## Extensions -/

/-- A text that can be the extension behind a stem: not empty, and without dots and slashes. -/
def PlainExtension (e : List Char) : Prop := e ≠ [] ∧ '.' ∉ e ∧ '/' ∉ e

theorem plainExtension_of_isExtension {e : String} (h : Settings.isExtension e = true) :
    PlainExtension e.toList := by
  simp only [Settings.isExtension, Settings.isWordOf, Bool.and_eq_true, Bool.not_eq_true',
    List.isEmpty_eq_false_iff, List.all_eq_true] at h
  refine ⟨h.1, fun hdot => ?_, fun hslash => ?_⟩
  · exact absurd (h.2 '.' hdot) (by decide)
  · exact absurd (h.2 '/' hslash) (by decide)

/-- What stands behind the last dot of a name is found from the end. -/
theorem takeWhile_reverse_dot (front : List Char) {e : List Char} (hdot : '.' ∉ e) :
    ((front ++ '.' :: e).reverse.takeWhile (· ≠ '.')).reverse = e := by
  rw [List.reverse_append, List.reverse_cons, List.append_assoc]
  rw [List.takeWhile_append_of_pos]
  · simp
  · intro c hc
    have hmem : c ∈ e := List.mem_reverse.mp hc
    simp only [ne_eq, decide_not, Bool.not_eq_true', decide_eq_false_iff_not]
    exact fun h => hdot (h ▸ hmem)

/-- A stem, a dot and an extension are taken apart again. -/
theorem splitName_append {stem e : List Char} (hstem : stem ≠ []) (hdot : '.' ∉ e) :
    splitName (stem ++ '.' :: e) = (stem, some e) := by
  have htail := takeWhile_reverse_dot stem hdot
  have hhead : (stem ++ '.' :: e).take ((stem ++ '.' :: e).length - e.length - 1) = stem := by
    have hlen : (stem ++ '.' :: e).length - e.length - 1 = stem.length := by
      simp only [List.length_append, List.length_cons]
      omega
    rw [hlen, List.take_left]
  unfold splitName
  simp only [htail, hhead]
  rw [if_neg]
  rintro (h | h)
  · simp only [List.length_append, List.length_cons] at h
    omega
  · exact hstem h

/-- A stem, a dot and an extension make a name: it has three characters at least. -/
theorem isName_append {stem e : List Char} (hstem : stem ≠ []) (he : e ≠ []) :
    IsName (stem ++ '.' :: e) := by
  obtain ⟨c, stem', hc⟩ := List.exists_cons_of_ne_nil hstem
  obtain ⟨d, e', hd⟩ := List.exists_cons_of_ne_nil he
  rw [hc, hd]
  refine ⟨by simp, fun heq => ?_, fun heq => ?_⟩ <;>
    · have hlen := congrArg List.length heq
      simp only [List.length_append, List.length_cons, List.length_nil] at hlen
      omega

/-- The stem of a name is not empty, and holds no slash if the name does not. -/
theorem splitName_stem {name : List Char} (hne : name ≠ []) (hslash : '/' ∉ name) :
    (splitName name).1 ≠ [] ∧ '/' ∉ (splitName name).1 := by
  unfold splitName
  simp only
  split
  · exact ⟨hne, hslash⟩
  · next h => exact ⟨fun hnil => h (.inr hnil), fun hmem => hslash (List.mem_of_mem_take hmem)⟩

/-- The path that ends in a name, with its extension replaced: it ends in the stem with the extension, or
    in `..` if the stem is a dot. -/
theorem withExtension_of_isName {p : Path} (h : IsName p.lastSegment) {e : String}
    (hext : e.toList ≠ []) :
    p.withExtension e = ⟨String.ofList (joinSegments (p.leadingSegments ++
      [if (splitName p.lastSegment).1 = ['.'] then ['.', '.']
        else (splitName p.lastSegment).1 ++ '.' :: e.toList]))⟩ := by
  unfold withExtension setExtension
  simp only [locate?_of_isName h, and_true, dotted, hext, if_false]
  split <;> rfl

/-- What an output path ends in, if it ends in a name: a stem other than a dot, and the extension. -/
theorem lastSegment_withExtension {p : Path} (h : IsName p.lastSegment) {e : String}
    (hext : PlainExtension e.toList) (hname : IsName (p.withExtension e).lastSegment) :
    ∃ stem, stem ≠ [] ∧ stem ≠ ['.'] ∧
      (p.withExtension e).lastSegment = stem ++ '.' :: e.toList := by
  obtain ⟨hne, hslash⟩ := splitName_stem h.1 p.slash_not_mem_lastSegment
  rw [withExtension_of_isName h hext.1] at hname ⊢
  by_cases hdot : (splitName p.lastSegment).1 = ['.']
  · -- a dot for a stem makes `..`, which is no name
    simp only [hdot, if_true] at hname
    rw [lastSegment_ofList_joinSegments p.slash_not_mem_leadingSegments (by decide)] at hname
    exact absurd rfl hname.2.2
  · refine ⟨_, hne, hdot, ?_⟩
    simp only [hdot, if_false]
    refine lastSegment_ofList_joinSegments p.slash_not_mem_leadingSegments fun hmem => ?_
    rcases List.mem_append.mp hmem with hmem | hmem
    · exact hslash hmem
    · rcases List.mem_cons.mp hmem with heq | hmem
      · exact absurd heq (by decide)
      · exact hext.2.2 hmem

/-- A path that ends in a stem and the extension has that extension already. -/
theorem withExtension_eq_self {p : Path} {stem : List Char} {e : String}
    (hext : PlainExtension e.toList) (hstem : stem ≠ []) (hdot : stem ≠ ['.'])
    (h : p.lastSegment = stem ++ '.' :: e.toList) : p.withExtension e = p := by
  have hname : IsName p.lastSegment := h ▸ isName_append hstem hext.1
  rw [withExtension_of_isName hname hext.1, h, splitName_append hstem hext.2.1]
  simp only [hdot, if_false]
  rw [← h, joinSegments_text, String.ofList_toList]

/-- A path without a file name is left as it is. -/
theorem withExtension_of_parent {p : Path} (h : p.lastSegment = ['.', '.']) (e : String) :
    p.withExtension e = p := by
  unfold withExtension
  rw [locate?_of_parent h]

end Path

end FacetQuery

import FacetQuery.Proofs.Selection.Position

/-!
# `FacetQuery.Proofs.Selection.Breaks` — what the breaks of a text decide, and what they do not

A line can end in three ways, and to what is read they are all one: which break stands between two lines never
matters, nor whether a break ends a line of one file or joins two files. A `\r` that comes to stand in front of a
`\n` makes one break with it, and a line goes missing; but only an empty one, which says nothing
(`selectionText_behind`).

To a report they are not one. It numbers lines by the breaks that hold a `\n`, so below a `\r` alone its line is not
the line of the grammar. The reader keeps no number of a line at all; the report counts in the text that reading had
passed when it got stuck, and no line that is left unread has a part in that (`Parted.firstBadAt`).

Main statements: `breaks_only_divide`, `mismatch_line`; that the two notions of a line part is
`mismatch_line_carriageReturn`.
-/

namespace FacetQuery.Selection

/-! ## Lines behind each other -/

theorem lineText_nil {s : Option Statement} : LineText [] s ↔ s = none := by
  constructor
  · intro h
    generalize hline : ([] : List Char) = line at h
    cases h with
    | blank hb => rfl
    | comment hb => exact absurd hline (by simp)
    | statement hb hs =>
        obtain ⟨c, cs, rfl, -⟩ := hs.exists_cons
        exact absurd hline (by simp)
  · rintro rfl
    exact .blank (allIn_nil _)

theorem linesText_cons {line : List Char} {lines : List (List Char)} {ss : List Statement} :
    LinesText (line :: lines) ss ↔ ∃ s ts, LineText line s ∧ LinesText lines ts ∧ ss = s.toList ++ ts := by
  constructor
  · intro h
    cases h with
    | cons hl hr => exact ⟨_, _, hl, hr, rfl⟩
  · rintro ⟨s, ts, hl, hr, rfl⟩
    exact .cons hl hr

/-- An empty line says nothing. -/
theorem linesText_nil_cons {lines : List (List Char)} {ss : List Statement} :
    LinesText ([] :: lines) ss ↔ LinesText lines ss := by
  rw [linesText_cons]
  constructor
  · rintro ⟨s, ts, hl, hr, rfl⟩
    obtain rfl := lineText_nil.mp hl
    exact hr
  · intro h
    exact ⟨none, ss, lineText_nil.mpr rfl, h, rfl⟩

theorem linesText_append {above below : List (List Char)} {ss : List Statement} :
    LinesText (above ++ below) ss ↔ ∃ ts us, LinesText above ts ∧ LinesText below us ∧ ss = ts ++ us := by
  induction above generalizing ss with
  | nil =>
      constructor
      · intro h
        exact ⟨[], ss, .nil, h, rfl⟩
      · rintro ⟨ts, us, hts, hus, rfl⟩
        cases hts
        exact hus
  | cons line above ih =>
      rw [List.cons_append, linesText_cons]
      constructor
      · rintro ⟨s, vs, hl, hr, rfl⟩
        obtain ⟨ts, us, hts, hus, rfl⟩ := ih.mp hr
        exact ⟨_, us, .cons hl hts, hus, (List.append_assoc ..).symm⟩
      · rintro ⟨ts, us, hts, hus, rfl⟩
        obtain ⟨s, vs, hl, hr, rfl⟩ := linesText_cons.mp hts
        exact ⟨s, vs ++ us, hl, ih.mpr ⟨vs, us, hr, hus, rfl⟩, List.append_assoc ..⟩

/-! ## Breaks between lines -/

/-- A line and a break in front of a text add the line, whatever the text begins with. -/
theorem selectionText_behind {line rest : List Char} {ss : List Statement} (brk : Break) (hl : Unbroken line) :
    SelectionText (line ++ (brk.chars ++ rest)) ss ↔ LinesText (line :: (Lines.ofText rest).toList) ss := by
  by_cases hn : brk = .carriageReturn → rest.head? ≠ some '\n'
  · rw [SelectionText, Lines.toList_ofText_behind brk hl hn rfl]
  · -- the break and the one that the text begins with are one: what stood between them was an empty line
    obtain ⟨hbrk, hhead⟩ := Classical.not_imp.mp hn
    obtain ⟨below, hrest⟩ := List.head?_eq_some_iff.mp (Classical.not_not.mp hhead)
    subst hbrk hrest
    have hfused : (Lines.ofText (line ++ (Break.carriageReturn.chars ++ '\n' :: below))).toList =
        line :: (Lines.ofText below).toList :=
      Lines.toList_ofText_behind .carriageReturnLineFeed hl (by simp) rfl
    have hempty : (Lines.ofText ('\n' :: below)).toList = [] :: (Lines.ofText below).toList :=
      Lines.toList_ofText_behind .lineFeed unbroken_nil (by simp) rfl
    rw [SelectionText, hfused, hempty, linesText_cons, linesText_cons]
    simp only [linesText_nil_cons]

/-- A text that is made up of lines and breaks says what its lines say, also where breaks come together. -/
theorem selectionText_toText {first : List Char} {later : List (Break × List Char)} {ss : List Statement}
    (h : ∀ line ∈ first :: later.map (·.2), Unbroken line) :
    SelectionText (Lines.toText ⟨first, later⟩) ss ↔ LinesText (first :: later.map (·.2)) ss := by
  have hfirst := h first List.mem_cons_self
  induction later generalizing first ss with
  | nil =>
      have htext : Lines.toText ⟨first, []⟩ = first := List.append_nil first
      rw [htext, SelectionText, Lines.ofText_line hfirst]
      rfl
  | cons entry later ih =>
      obtain ⟨brk, next⟩ := entry
      have hbelow : ∀ line ∈ next :: later.map (·.2), Unbroken line :=
        fun line hmem => h line (List.mem_cons_of_mem first hmem)
      have htext : Lines.toText ⟨first, (brk, next) :: later⟩ =
          first ++ (brk.chars ++ Lines.toText ⟨next, later⟩) := by
        simp only [Lines.toText, List.flatMap_cons, List.append_assoc]
      rw [htext, selectionText_behind brk hfirst, linesText_cons, List.map_cons, linesText_cons]
      have hrest : ∀ ts, LinesText (Lines.ofText (Lines.toText ⟨next, later⟩)).toList ts ↔
          LinesText (next :: later.map (·.2)) ts := fun ts => ih hbelow (hbelow next List.mem_cons_self)
      simp only [hrest]

/-- Two texts with a break between them say what the one says and then what the other says. -/
theorem selectionText_joined {a b : List Char} {ss : List Statement} (brk : Break) :
    SelectionText (a ++ (brk.chars ++ b)) ss ↔
      ∃ ts us, SelectionText a ts ∧ SelectionText b us ∧ ss = ts ++ us := by
  have hlines : (Lines.ofText a).first :: ((Lines.ofText a).later ++
        (brk, (Lines.ofText b).first) :: (Lines.ofText b).later).map (·.2) =
      (Lines.ofText a).toList ++ (Lines.ofText b).toList := by
    simp only [Lines.toList, List.map_append, List.map_cons, List.cons_append]
  have htext : Lines.toText ⟨(Lines.ofText a).first,
        (Lines.ofText a).later ++ (brk, (Lines.ofText b).first) :: (Lines.ofText b).later⟩ =
      a ++ (brk.chars ++ b) := by
    conv => rhs; rw [← Lines.toText_ofText a, ← Lines.toText_ofText b]
    simp only [Lines.toText, List.flatMap_append, List.flatMap_cons, List.append_assoc]
  rw [← htext, selectionText_toText, hlines, linesText_append]
  · rfl
  · intro line hmem
    rw [hlines] at hmem
    exact (List.mem_append.mp hmem).elim Lines.not_break_of_mem_toList Lines.not_break_of_mem_toList

/-- A text is parted in one way only, the one of the fold over it. -/
theorem Parted.ofText_eq {text line : List Char} {later : List (Break × List Char)} (h : Parted text line later) :
    Lines.ofText text = ⟨line, later⟩ := by
  induction h with
  | last hl => exact Lines.ofText_line hl
  | next brk hl hn _ ih => rw [Lines.ofText_behind brk hl hn, ih]

/-- **Breaks only divide.** Two texts with any break between them have a stream iff both have one, and then theirs
    behind each other. And a text may have any other breaks in the place of its own, each for itself: it has a
    stream iff it had one, and the same, even if two breaks come together and are one. -/
theorem breaks_only_divide :
    (∀ (a b : List Char) (brk : Break) (es : List Event), events (a ++ (brk.chars ++ b)) = .ok es ↔
      ∃ fs gs, events a = .ok fs ∧ events b = .ok gs ∧ es = fs ++ gs) ∧
    ∀ text first later later', Parted text first later → later'.map (·.2) = later.map (·.2) →
      ∀ es, events (Lines.toText ⟨first, later'⟩) = .ok es ↔ events text = .ok es := by
  simp only [events_eq_ok_iff_selectionText]
  constructor
  · intro a b brk es
    constructor
    · rintro ⟨ss, hss, rfl⟩
      obtain ⟨ts, us, hts, hus, rfl⟩ := (selectionText_joined brk).mp hss
      exact ⟨_, _, ⟨ts, hts, rfl⟩, ⟨us, hus, rfl⟩, eventsOf_append ts us⟩
    · rintro ⟨_, _, ⟨ts, hts, rfl⟩, ⟨us, hus, rfl⟩, rfl⟩
      exact ⟨ts ++ us, (selectionText_joined brk).mpr ⟨ts, us, hts, hus, rfl⟩, eventsOf_append ts us⟩
  · intro text first later later' hparted hsame es
    have hlines : (Lines.ofText text).toList = first :: later'.map (·.2) := by
      rw [hparted.ofText_eq, hsame]
      rfl
    have hunbroken : ∀ line ∈ first :: later'.map (·.2), Unbroken line := fun line hmem =>
      Lines.not_break_of_mem_toList (hlines ▸ hmem)
    have hselection : ∀ ss, SelectionText (Lines.toText ⟨first, later'⟩) ss ↔ SelectionText text ss := fun ss => by
      rw [selectionText_toText hunbroken, SelectionText, hlines]
    simp only [hselection]

/-- With other breaks the blank line is gone, as the `\r` above it and the `\n` below it are one break. -/
theorem breaks_only_divide_fused :
    ∃ es, events "#\n\na=1\r\nvariable[A]=t".toList = .ok es ∧
      events "#\r\na=1\rvariable[A]=t".toList = .ok es := by
  have hread : (events "#\n\na=1\r\nvariable[A]=t".toList).toOption =
      some [.name "a", .value "1", .stop, .frequency "A", .value "t", .variableStop, .stop] := by decide +kernel
  cases h : events "#\n\na=1\r\nvariable[A]=t".toList with
  | error m =>
      rw [h] at hread
      cases hread
  | ok es =>
      have hother := breaks_only_divide.2 "#\n\na=1\r\nvariable[A]=t".toList ['#']
        [(.lineFeed, []), (.lineFeed, ['a', '=', '1']), (.carriageReturnLineFeed, "variable[A]=t".toList)]
        [(.carriageReturn, []), (.lineFeed, ['a', '=', '1']), (.carriageReturn, "variable[A]=t".toList)]
        (parted_ofText _) rfl es
      exact ⟨es, rfl, hother.mpr h⟩

/-! ## What the lines of a report are counted by -/

/-- Of these lines, the one with `k` lines above it is the first that is no line of the grammar. -/
structure FirstBadAt (lines : List (List Char)) (k : Nat) : Prop where
  above : ∀ j < k, ∃ line s, lines[j]? = some line ∧ LineText line s
  bad : ∃ line, lines[k]? = some line ∧ ∀ s, ¬ LineText line s

theorem FirstBadAt.le {lines : List (List Char)} {j k : Nat} (hj : FirstBadAt lines j)
    (hk : FirstBadAt lines k) : k ≤ j := by
  obtain ⟨bad, hbad, hnone⟩ := hj.bad
  refine Nat.le_of_not_lt fun hlt => ?_
  obtain ⟨line, s, hline, hs⟩ := hk.above j hlt
  cases hbad.symm.trans hline
  exact hnone s hs

theorem FirstBadAt.behind {lines : List (List Char)} {line : List Char} {s : Option Statement} {k : Nat}
    (h : FirstBadAt lines k) (hs : LineText line s) : FirstBadAt (line :: lines) (k + 1) where
  above j hj := by
    cases j with
    | zero => exact ⟨line, s, rfl, hs⟩
    | succ j => exact h.above j (Nat.lt_of_succ_lt_succ hj)
  bad := h.bad

/-- The breaks above the line that has `k` lines above it. -/
def breaksAbove (later : List (Break × List Char)) (k : Nat) : List Break := (later.take k).map (·.1)

theorem Break.count_chars (brk : Break) : brk.chars.count '\n' = [brk].countP (· ≠ .carriageReturn) := by
  cases brk <;> rfl

theorem Unbroken.count_eq_zero {line : List Char} (hl : Unbroken line) : line.count '\n' = 0 :=
  List.count_eq_zero.mpr fun hmem => (hl _ hmem).1 rfl

/-- No break stands in front of a place in the first line. -/
theorem Unbroken.count_take_eq_zero {text line : List Char} {n : Nat} (hl : Unbroken line)
    (hstarts : line <+: text) (hn : n ≤ line.length) : (text.take n).count '\n' = 0 := by
  obtain ⟨rest, rfl⟩ := hstarts
  rw [List.take_append_of_le_length hn]
  exact Unbroken.count_eq_zero fun c hc => hl c (List.mem_of_mem_take hc)

/-- Where reading a text is stuck, the `\n`s in front are those of the breaks above the first bad line. -/
theorem Parted.firstBadAt {text line : List Char} {later : List (Break × List Char)}
    (hparted : Parted text line later) {start : Nat} {tried : Attempts}
    (h : readFrom start line later = .error tried) :
    ∃ k, FirstBadAt (line :: later.map (·.2)) k ∧ ∃ n, tried.place = start + n ∧
      (text.take n).count '\n' = (breaksAbove later k).countP (· ≠ .carriageReturn) := by
  induction hparted generalizing start with
  | @last line hl =>
      rcases readFrom_error_cases h with ⟨stuck, hread, hplace⟩ | ⟨_, _, _, _, hlater, -⟩
      · obtain ⟨hbad, hviable⟩ := viable_of_readLine hread
        exact ⟨0, ⟨nofun, line, rfl, hbad⟩, _, hplace, hl.count_take_eq_zero (List.prefix_refl _) hviable.1⟩
      · exact nomatch hlater
  | @next line rest next later brk hl hn _ ih =>
      rcases readFrom_error_cases h with ⟨stuck, hread, hplace⟩ | ⟨_, _, _, s, hlater, hread, hrest⟩
      · obtain ⟨hbad, hviable⟩ := viable_of_readLine hread
        exact ⟨0, ⟨nofun, line, rfl, hbad⟩, _, hplace,
          hl.count_take_eq_zero (List.prefix_append _ _) hviable.1⟩
      · -- the first line is good: its break is passed, and the place is further down
        cases hlater
        obtain ⟨k, hfirst, n, hplace, hcount⟩ := ih hrest
        refine ⟨k + 1, hfirst.behind (lineText_of_readLine hread), line.length + (brk.chars.length + n),
          by omega, ?_⟩
        have habove : breaksAbove ((brk, next) :: later) (k + 1) = [brk] ++ breaksAbove later k := rfl
        rw [List.take_length_add_append, List.take_length_add_append, List.count_append, List.count_append,
          hl.count_eq_zero, hcount, brk.count_chars, habove, List.countP_append, Nat.zero_add]

/-- **A report numbers lines by the breaks that hold a `\n`.** A text that has no stream is parted at its breaks in
    one way, and one of its lines is the first that is none. The line of the report is one more than the breaks
    above that line, of which those that are a `\r` alone are not counted; so it is the number of the line iff none
    of them is. -/
theorem mismatch_line {text : List Char} {m : Mismatch} (h : events text = .error m) :
    ∃ first later k,
      (Parted text first later ∧ ∀ first' later', Parted text first' later' → first' = first ∧ later' = later) ∧
      (FirstBadAt (first :: later.map (·.2)) k ∧ ∀ j, FirstBadAt (first :: later.map (·.2)) j → j = k) ∧
      m.line = 1 + (breaksAbove later k).countP (· ≠ .carriageReturn) ∧
      (m.line = 1 + (breaksAbove later k).length ↔ .carriageReturn ∉ breaksAbove later k) ∧
      (breaksAbove later k).length = k := by
  obtain ⟨tried, hread, hline, -⟩ := exists_tried_of_events h
  obtain ⟨k, hfirst, n, hplace, hcount⟩ := (parted_ofText text).firstBadAt hread
  rw [hplace, Nat.zero_add, Mismatch.lineAfter, hcount] at hline
  refine ⟨_, _, k, ⟨parted_ofText text, fun first' later' h' => ?_⟩,
    ⟨hfirst, fun j hj => Nat.le_antisymm (hfirst.le hj) (hj.le hfirst)⟩, hline, ?_, ?_⟩
  · rw [h'.ofText_eq]
    exact ⟨rfl, rfl⟩
  · rw [hline, Nat.add_left_cancel_iff, List.countP_eq_length]
    constructor
    · intro hall hmem
      exact of_decide_eq_true (hall _ hmem) rfl
    · intro hnone brk hmem
      exact decide_eq_true fun heq => hnone (heq ▸ hmem)
  · obtain ⟨bad, hbad, -⟩ := hfirst.bad
    have hlt := (List.getElem?_eq_some_iff.mp hbad).1
    rw [List.length_cons, List.length_map] at hlt
    rw [breaksAbove, List.length_map, List.length_take, Nat.min_eq_left (by omega)]

/-- The fourth line, below a break of each sort, is reported as the third. -/
theorem mismatch_line_three_breaks :
    ∃ m, events "#\r\n\ra=1\n=".toList = .error m ∧ m.line = 3 ∧
      ∃ first later k, Parted "#\r\n\ra=1\n=".toList first later ∧
        FirstBadAt (first :: later.map (·.2)) k ∧
        m.line = 1 + (breaksAbove later k).countP (· ≠ .carriageReturn) := by
  have hreport : (match events "#\r\n\ra=1\n=".toList with
      | .error m => decide (m.line = 3)
      | .ok _ => false) = true := by decide +kernel
  cases h : events "#\r\n\ra=1\n=".toList with
  | ok es =>
      rw [h] at hreport
      exact nomatch hreport
  | error m =>
      rw [h] at hreport
      obtain ⟨first, later, k, ⟨hparted, -⟩, ⟨hfirst, -⟩, hline, -, -⟩ := mismatch_line h
      exact ⟨m, rfl, of_decide_eq_true hreport, first, later, k, hparted, hfirst, hline⟩

/-- The line of a report is not one more than all breaks above the first bad line: a text whose second line is bad
    and begins behind a `\r` is reported in line 1. -/
theorem mismatch_line_carriageReturn :
    ¬ ∀ text m first later k, events text = .error m → Parted text first later →
      FirstBadAt (first :: later.map (·.2)) k → m.line = 1 + (breaksAbove later k).length := by
  intro hall
  have hreport : (match events "project=CMIP6\rCMIP5\r".toList with
      | .error m => decide (m.line = 1)
      | .ok _ => false) = true := by decide +kernel
  have hgood : LineText "project=CMIP6".toList (some (.basic "project" ["CMIP6"])) := by
    have hread : (readLine "project=CMIP6".toList).toOption = some (some (.basic "project" ["CMIP6"])) := by
      decide +kernel
    cases h : readLine "project=CMIP6".toList with
    | error tried =>
        rw [h] at hread
        exact nomatch hread
    | ok s =>
        rw [h] at hread
        cases hread
        exact lineText_of_readLine h
  have hbad : ∀ s, ¬ LineText "CMIP5".toList s := by
    intro s hs
    have hread : (readLine "CMIP5".toList).toOption = none := by decide +kernel
    rw [readLine_of_lineText hs] at hread
    exact nomatch hread
  have hfirst : FirstBadAt ["project=CMIP6".toList, "CMIP5".toList, []] 1 := by
    refine ⟨fun j hj => ?_, _, rfl, hbad⟩
    obtain rfl : j = 0 := by omega
    exact ⟨_, _, rfl, hgood⟩
  cases h : events "project=CMIP6\rCMIP5\r".toList with
  | ok es =>
      rw [h] at hreport
      exact nomatch hreport
  | error m =>
      rw [h] at hreport
      have hline := hall _ m "project=CMIP6".toList [(.carriageReturn, "CMIP5".toList), (.carriageReturn, [])] 1 h
        (parted_ofText _) hfirst
      exact absurd (hline.symm.trans (of_decide_eq_true hreport)) (by decide)

end FacetQuery.Selection

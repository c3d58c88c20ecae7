import FacetQuery.Proofs.Selection.Probing

/-!
# `FacetQuery.Proofs.Selection.Position` — where a text that is no selection got stuck

A report of a mismatch names a line and a column. They count every `\n`, and only those, as the end of a
line, while a line of the grammar can also end at a lone `\r`; so the line of the report need not be the
number of a line of the grammar. What the report does name is a place in the text (`StandsAt.unique`), and
the place is right: it is in the first line that is no line of the grammar, or at its end (`FirstBad`), and
what stands before it can be continued to a selection.

## Contents
- `Viable`: the places at which a line can be stuck, by what the readers record (`viable_of_readLine`).
- `Parted`: a text at its breaks, with the breaks kept, since places are counted across them.
- `FirstBad` and `exists_of_readFrom`: the lines are read in order, and the first that is none ends it.
- `StandsAt`: what a line and a column say of a place.
- `mismatch_place`.
-/

namespace FacetQuery.Selection

/-! ## Lines that are stuck -/

/-- The place is in the line or at its end, and what stands before it can be continued to a line. -/
def Viable (line : List Char) (k : Nat) : Prop :=
  k ≤ line.length ∧ ∃ more s, Unbroken more ∧ LineText (line.take k ++ more) s

theorem viable_of_extends {line : List Char} {place : Nat} (h : Reader.Extends LineText ⟨0, line⟩ place) :
    Viable line place := by
  obtain ⟨u, r, more, s, hline, hplace, hmore, hs⟩ := h
  obtain rfl : line = u ++ r := hline
  obtain rfl : place = u.length := hplace.trans (Nat.zero_add _)
  exact ⟨by simp, more, s, hmore, by simpa using hs⟩

/-- One more failure at a viable place leaves the record at one. -/
theorem Viable.fail {line : List Char} {tried : Attempts} {p : Nat} (h : Viable line tried.place)
    (hp : Viable line p) (r : Rule) (entered : Nat) : Viable line (tried.fail r p entered).place := by
  rcases tried.place_fail_eq r p entered with hplace | hplace
  · rwa [hplace]
  · rwa [hplace]

/-- A line on which reading is stuck is none, and the place is a viable one. -/
theorem viable_of_readLine {line : List Char} {tried : Attempts} (h : readLine line = .error tried) :
    (∀ s, ¬ LineText line s) ∧ Viable line tried.place := by
  refine ⟨fun s hs => (nomatch h.symm.trans (readLine_of_lineText hs)), ?_⟩
  have hblanks := allIn_takeWhile isBlank line
  have hsplit : line = line.takeWhile isBlank ++ (Cursor.passWhile ⟨0, line⟩ isBlank).rest :=
    List.takeWhile_append_dropWhile.symm
  -- the places at which the line can be stuck: its start, behind its blanks, and in or behind a statement
  have hstart : Viable line 0 :=
    viable_of_extends ⟨[], line, [], none, rfl, rfl, unbroken_nil, .blank (allIn_nil _)⟩
  have hindent : Viable line (Cursor.passWhile ⟨0, line⟩ isBlank).passed :=
    viable_of_extends ⟨_, _, [], none, hsplit, rfl, unbroken_nil, .blank (by rwa [List.append_nil])⟩
  have hinside : ∀ {place}, Reader.Extends StatementText (Cursor.passWhile ⟨0, line⟩ isBlank) place →
      Viable line place := fun hextends =>
    viable_of_extends (hextends.behind hsplit rfl fun hs => ⟨_, .statement hblanks hs⟩)
  have hrecords := Reader.probes_statement.records (Cursor.passWhile ⟨0, line⟩ isBlank) .empty
  unfold readLine at h
  simp only at h
  split at h
  · exact nomatch h
  · exact nomatch h
  split at h
  · exact nomatch h
  · next s d tried' _ hread =>
      obtain ⟨w, hw, hrest, hend⟩ := Reader.probes_statement.passes _ _ _ _ _ hread
      rw [hread] at hrecords
      cases h
      have hbehind := hinside ⟨w, d.rest, [], s, hrest, hend, unbroken_nil, by rwa [List.append_nil]⟩
      exact (hrecords.elim (fun hempty => hempty ▸ hstart) hinside).fail hbehind _ _
  · next tried' hread =>
      rw [hread] at hrecords
      cases h
      exact (hrecords.elim (fun hempty => hempty ▸ hstart) hinside).fail hindent _ _

/-! ## Texts that are stuck -/

/-- A text, its first line, and its later lines under the breaks that precede them. -/
inductive Parted : List Char → List Char → List (Break × List Char) → Prop
  | last {line : List Char} (hl : Unbroken line) : Parted line line []
  | next {line rest next : List Char} {later : List (Break × List Char)} (brk : Break) (hl : Unbroken line)
      (hn : brk = .carriageReturn → rest.head? ≠ some '\n') (hr : Parted rest next later) :
      Parted (line ++ (brk.chars ++ rest)) line ((brk, next) :: later)

theorem Parted.cons {c : Char} {text line : List Char} {later : List (Break × List Char)}
    (hc : c ≠ '\n' ∧ c ≠ '\r') (h : Parted text line later) : Parted (c :: text) (c :: line) later := by
  have hline : ∀ {line}, Unbroken line → Unbroken (c :: line) :=
    fun hl d hd => (List.mem_cons.mp hd).elim (fun hd => hd ▸ hc) (hl d)
  cases h with
  | last hl => exact .last (hline hl)
  | next brk hl hn hr => exact .next brk (hline hl) hn hr

/-- The fold over a text parts it at its breaks. -/
theorem parted_ofText (text : List Char) :
    Parted text (Lines.ofText text).first (Lines.ofText text).later := by
  induction text with
  | nil => exact .last unbroken_nil
  | cons c text ih =>
      rw [Lines.ofText_cons]
      unfold Lines.cons
      split
      · next hc =>
          subst hc
          exact .next .lineFeed unbroken_nil (nomatch ·) ih
      split
      · next hc =>
          subst hc
          split
          · next next later heq =>
              -- the two characters are one break
              rw [heq] at ih
              cases ih with
              | next _ _ _ hr => exact .next .carriageReturnLineFeed unbroken_nil (nomatch ·) hr
          · next first later hlone heq =>
              rw [heq] at ih
              refine .next .carriageReturn unbroken_nil (fun _ hhead => ?_) ih
              cases text with
              | nil => exact nomatch hhead
              | cons c cs =>
                  cases Option.some.inj hhead
                  cases heq
                  exact hlone _ _ rfl rfl
      · next hn hr => exact ih.cons ⟨hn, hr⟩

/-- A line, the break behind it, and the lines behind that. -/
theorem CutText.behind {line rest : List Char} {lines : List (List Char)} {brk : Break} (hl : Unbroken line)
    (hn : brk = .carriageReturn → rest.head? ≠ some '\n') (hr : CutText rest lines) :
    CutText (line ++ (brk.chars ++ rest)) (line :: lines) := by
  cases brk with
  | lineFeed => exact .lineFeed hl hr
  | carriageReturnLineFeed => exact .carriageReturnLineFeed hl hr
  | carriageReturn => exact .carriageReturn hl (hn rfl) hr

theorem Parted.cutText {text line : List Char} {later : List (Break × List Char)} (h : Parted text line later) :
    CutText text (line :: later.map (·.2)) := by
  induction h with
  | last hl => exact .last hl
  | next _ hl hn _ ih => exact ih.behind hl hn

/-- What holds no break only makes the last line longer. -/
theorem CutText.append {text last t : List Char} {lines : List (List Char)} (h : CutText text (lines ++ [last]))
    (ht : Unbroken t) : CutText (text ++ t) (lines ++ [last ++ t]) := by
  induction lines generalizing text with
  | nil =>
      cases h with
      | last hl => exact .last (hl.append ht)
      | lineFeed _ hr => exact nomatch hr
      | carriageReturnLineFeed _ hr => exact nomatch hr
      | carriageReturn _ _ hr => exact nomatch hr
  | cons line lines ih =>
      rw [List.cons_append] at h
      generalize hlater : lines ++ [last] = later at h ih
      cases h with
      | last hl => exact absurd hlater (by simp)
      | lineFeed hl hr =>
          rw [List.append_assoc]
          exact .lineFeed hl (ih hr)
      | carriageReturnLineFeed hl hr =>
          rw [List.append_assoc]
          exact .carriageReturnLineFeed hl (ih hr)
      | @carriageReturn line rest _ hl hn hr =>
          rw [List.append_assoc]
          refine .carriageReturn hl ?_ (ih hr)
          cases rest with
          | nil => exact fun hhead => (ht _ (List.mem_of_mem_head? hhead)).1 rfl
          | cons c rest => exact hn

/-- `bad` is the first line of the text that is no line of the grammar: `good` are the lines above it,
    `rest` those below, and `front` is what stands before it. -/
structure FirstBad (text front bad : List Char) (good rest : List (List Char)) : Prop where
  cut : CutText text (good ++ bad :: rest)
  cut_front : CutText front (good ++ [[]])
  starts : front ++ bad <+: text
  good_lines : ∃ ss, LinesText good ss
  not_line : ∀ s, ¬ LineText bad s

/-- A line of the grammar above takes nothing from the first that is none. -/
theorem FirstBad.behind {text front bad line : List Char} {good rest : List (List Char)} {brk : Break}
    {s : Option Statement} (h : FirstBad text front bad good rest) (hl : Unbroken line)
    (hn : brk = .carriageReturn → text.head? ≠ some '\n') (hs : LineText line s) :
    FirstBad (line ++ (brk.chars ++ text)) (line ++ (brk.chars ++ front)) bad (line :: good) rest where
  cut := h.cut.behind hl hn
  cut_front := by
    refine h.cut_front.behind hl fun hbrk => ?_
    obtain ⟨after, rfl⟩ := h.starts
    cases front with
    | nil => exact nofun
    | cons c front => exact hn hbrk
  starts := by
    obtain ⟨after, rfl⟩ := h.starts
    exact ⟨after, by simp only [List.append_assoc]⟩
  good_lines := by
    obtain ⟨ss, hss⟩ := h.good_lines
    exact ⟨_, .cons hs hss⟩
  not_line := h.not_line

/-- Reading is stuck on the first line, or reads it and is stuck further down. -/
theorem readFrom_error_cases {start : Nat} {line : List Char} {later : List (Break × List Char)}
    {tried : Attempts} (h : readFrom start line later = .error tried) :
    (∃ stuck, readLine line = .error stuck ∧ tried.place = start + stuck.place) ∨
    ∃ brk next below s, later = (brk, next) :: below ∧ readLine line = .ok s ∧
      readFrom (start + line.length + brk.chars.length) next below = .error tried := by
  cases later with
  | nil =>
      unfold readFrom at h
      split at h
      · next stuck hread =>
          cases h
          exact .inl ⟨stuck, hread, rfl⟩
      · exact nomatch h
  | cons entry below =>
      obtain ⟨brk, next⟩ := entry
      unfold readFrom at h
      split at h
      · next stuck hread =>
          cases h
          exact .inl ⟨stuck, hread, rfl⟩
      · next s hread =>
          refine .inr ⟨brk, next, below, s, rfl, hread, ?_⟩
          cases hrest : readFrom (start + line.length + brk.chars.length) next below with
          | error tried' =>
              rw [hrest] at h
              exact h
          | ok ss =>
              rw [hrest] at h
              exact nomatch h

/-- Where reading a text is stuck: at a viable place of the first line that is none. -/
theorem exists_of_readFrom {text line : List Char} {later : List (Break × List Char)}
    (hparted : Parted text line later) {start : Nat} {tried : Attempts}
    (h : readFrom start line later = .error tried) : ∃ front bad good rest k,
      FirstBad text front bad good rest ∧ tried.place = start + front.length + k ∧ Viable bad k := by
  induction hparted generalizing start with
  | @last line hl =>
      rcases readFrom_error_cases h with ⟨stuck, hread, hplace⟩ | ⟨_, _, _, _, hlater, -⟩
      · obtain ⟨hbad, hviable⟩ := viable_of_readLine hread
        exact ⟨[], line, [], [], _, ⟨.last hl, .last unbroken_nil, List.prefix_refl _, ⟨[], .nil⟩, hbad⟩,
          hplace, hviable⟩
      · exact nomatch hlater
  | @next line rest next later brk hl hn hr ih =>
      rcases readFrom_error_cases h with ⟨stuck, hread, hplace⟩ | ⟨_, _, _, s, hlater, hread, hrest⟩
      · obtain ⟨hbad, hviable⟩ := viable_of_readLine hread
        exact ⟨[], line, [], _, _, ⟨hr.cutText.behind hl hn, .last unbroken_nil, List.prefix_append _ _,
          ⟨[], .nil⟩, hbad⟩, hplace, hviable⟩
      · cases hlater
        obtain ⟨front, bad, good, below, k, hfirst, hplace, hviable⟩ := ih hrest
        refine ⟨_, bad, _, below, k, hfirst.behind hl hn (lineText_of_readLine hread), ?_, hviable⟩
        rw [hplace]
        simp only [List.length_append]
        omega

/-! ## Lines and columns -/

/-- The place with `n` characters in front of it stands in this line and column, where a line ends behind
    each `\n` and nowhere else: in front of it are the whole lines above and as many characters as there are
    columns to its left. -/
def StandsAt (text : List Char) (n line column : Nat) : Prop :=
  n ≤ text.length ∧ ∃ above left, text.take n = above ++ left ∧ (above = [] ∨ above.getLast? = some '\n') ∧
    '\n' ∉ left ∧ line = above.count '\n' + 1 ∧ column = left.length + 1

/-- What a report names is the place that it is about. -/
theorem standsAt_take {text : List Char} {n : Nat} (h : n ≤ text.length) :
    StandsAt text n (Mismatch.lineAfter (text.take n)) (Mismatch.columnAfter (text.take n)) := by
  generalize hfront : text.take n = front
  have hsplit : (front.reverse.dropWhile (· ≠ '\n')).reverse ++
      (front.reverse.takeWhile (· ≠ '\n')).reverse = front := by
    rw [← List.reverse_append, List.takeWhile_append_dropWhile, List.reverse_reverse]
  have hleft : '\n' ∉ (front.reverse.takeWhile (· ≠ '\n')).reverse := by
    intro hmem
    have hall := List.all_eq_true.mp (List.all_takeWhile (p := (· ≠ '\n')) (l := front.reverse)) '\n'
      (List.mem_reverse.mp hmem)
    simp at hall
  refine ⟨h, _, _, hfront.trans hsplit.symm, ?_, hleft, ?_, ?_⟩
  · cases hdrop : front.reverse.dropWhile (· ≠ '\n') with
    | nil => exact .inl rfl
    | cons c cs =>
        have hc := List.head?_dropWhile_not (· ≠ '\n') front.reverse
        rw [hdrop] at hc
        refine .inr ?_
        simpa using hc
  · have hcount := congrArg (List.count '\n') hsplit
    rw [List.count_append, List.count_eq_zero.mpr hleft, Nat.add_zero] at hcount
    rw [Mismatch.lineAfter, hcount, Nat.add_comm]
  · rw [Mismatch.columnAfter, List.length_reverse, Nat.add_comm]

/-- The lines above are as many characters as there are if they are as many lines. -/
theorem above_eq_of_start {above above' : List Char} (hstart : above <+: above')
    (hends : above' = [] ∨ above'.getLast? = some '\n') (hcount : above.count '\n' = above'.count '\n') :
    above = above' := by
  obtain ⟨more, rfl⟩ := hstart
  have hmore : '\n' ∉ more := by
    rw [List.count_append] at hcount
    exact List.count_eq_zero.mp (by omega)
  cases hlast : more.getLast? with
  | none => rw [List.getLast?_eq_none_iff.mp hlast, List.append_nil]
  | some c =>
      rw [List.getLast?_append, hlast] at hends
      rcases hends with hnil | hbreak
      · rw [(List.append_eq_nil_iff.mp hnil).2] at hlast
        exact nomatch hlast
      · cases hbreak
        exact absurd (List.mem_of_getLast? hlast) hmore

/-- A line and a column name one place at most. -/
theorem StandsAt.unique {text : List Char} {m n line column : Nat} (hm : StandsAt text m line column)
    (hn : StandsAt text n line column) : m = n := by
  obtain ⟨hm, above, left, htake, hends, -, hline, hcolumn⟩ := hm
  obtain ⟨hn, above', left', htake', hends', -, hline', hcolumn'⟩ := hn
  have hcount : above.count '\n' = above'.count '\n' := by omega
  have habove : above <+: text := (List.prefix_append above left).trans (htake ▸ List.take_prefix m text)
  have habove' : above' <+: text :=
    (List.prefix_append above' left').trans (htake' ▸ List.take_prefix n text)
  have hsame : above = above' := by
    rcases Nat.le_total above.length above'.length with hle | hle
    · exact above_eq_of_start (List.prefix_of_prefix_length_le habove habove' hle) hends' hcount
    · exact (above_eq_of_start (List.prefix_of_prefix_length_le habove' habove hle) hends
        hcount.symm).symm
  have hlength : m = above.length + left.length := by
    rw [← List.length_append, ← htake, List.length_take_of_le hm]
  have hlength' : n = above'.length + left'.length := by
    rw [← List.length_append, ← htake', List.length_take_of_le hn]
  rw [hlength, hlength', hsame]
  omega

/-! ## The report -/

/-- That the whole selection failed, tried at the start, moves no record. -/
theorem Attempts.place_fail_zero (tried : Attempts) (r : Rule) (entered : Nat) :
    (tried.fail r 0 entered).place = tried.place := by
  have hle := tried.place_le_fail r 0 entered
  rcases tried.place_fail_eq r 0 entered with h | h
  · exact h
  · omega

/-- A report is on the place where reading is stuck. -/
theorem exists_tried_of_events {text : List Char} {m : Mismatch} (h : events text = .error m) :
    ∃ tried, readFrom 0 (Lines.ofText text).first (Lines.ofText text).later = .error tried ∧
      m.line = Mismatch.lineAfter (text.take tried.place) ∧
      m.column = Mismatch.columnAfter (text.take tried.place) := by
  simp only [events, statements] at h
  cases hread : readFrom 0 (Lines.ofText text).first (Lines.ofText text).later with
  | ok ss =>
      rw [hread] at h
      cases h
  | error tried =>
      rw [hread] at h
      have hm : m = Mismatch.ofAttempts text tried := (Except.error.inj h).symm
      refine ⟨tried, rfl, ?_⟩
      rw [hm]
      simp only [Mismatch.ofAttempts, Attempts.place_fail_zero, and_self]

theorem LinesText.concat {lines : List (List Char)} {ss : List Statement} {line : List Char}
    {s : Option Statement} (h : LinesText lines ss) (hl : LineText line s) :
    ∃ ts, LinesText (lines ++ [line]) ts := by
  induction h with
  | nil => exact ⟨_, .cons hl .nil⟩
  | cons hfirst _ ih =>
      obtain ⟨ts, hts⟩ := ih
      exact ⟨_, .cons hfirst hts⟩

/-- A text of lines of the grammar has a stream. -/
theorem exists_events {text : List Char} {lines : List (List Char)} {ss : List Statement}
    (hcut : CutText text lines) (hlines : LinesText lines ss) : ∃ es, events text = .ok es := by
  have hselection : SelectionText text ss := by
    rwa [SelectionText, cutText_iff.mp hcut]
  exact ⟨_, events_eq_ok_iff_selectionText.mpr ⟨ss, hselection, rfl⟩⟩

/-- The text up to a viable place of the first bad line is the beginning of a selection. -/
theorem FirstBad.exists_events {text front bad : List Char} {good rest : List (List Char)} {k : Nat}
    (h : FirstBad text front bad good rest) (hviable : Viable bad k) :
    ∃ more es, events (text.take (front.length + k) ++ more) = .ok es := by
  obtain ⟨hk, more, s, hmore, hline⟩ := hviable
  have hmem : bad ∈ (Lines.ofText text).toList := by
    rw [cutText_iff.mp h.cut]
    simp
  have hbad : Unbroken bad := Lines.not_break_of_mem_toList hmem
  have htake : text.take (front.length + k) = front ++ bad.take k := by
    obtain ⟨after, rfl⟩ := h.starts
    rw [List.append_assoc, List.take_append, List.take_of_length_le (by omega), Nat.add_sub_cancel_left,
      List.take_append_of_le_length hk]
  have hrest : Unbroken (bad.take k ++ more) := .append (fun c hc => hbad c (List.mem_of_mem_take hc)) hmore
  obtain ⟨ss, hgood⟩ := h.good_lines
  obtain ⟨ts, hts⟩ := hgood.concat hline
  refine ⟨more, ?_⟩
  rw [htake, List.append_assoc]
  exact Selection.exists_events (h.cut_front.append hrest) hts

/-- **A mismatch is reported in the first line that is none, and not past what can be continued.** The line
    and the column of the report name one place. It stands in the first line that is no line of the grammar,
    or at its end, and any text that ends at the place or before it is the beginning of a selection. -/
theorem mismatch_place {text : List Char} {m : Mismatch} (h : events text = .error m) :
    ∃ n, StandsAt text n m.line m.column ∧ (∀ k, StandsAt text k m.line m.column → k = n) ∧
      (∃ front bad good rest, FirstBad text front bad good rest ∧
        front.length ≤ n ∧ n ≤ front.length + bad.length) ∧
      ∀ k ≤ n, ∃ more es, events (text.take k ++ more) = .ok es := by
  obtain ⟨tried, hread, hline, hcolumn⟩ := exists_tried_of_events h
  obtain ⟨front, bad, good, rest, k, hfirst, hplace, hviable⟩ := exists_of_readFrom (parted_ofText text) hread
  rw [Nat.zero_add] at hplace
  have hk := hviable.1
  have hle : tried.place ≤ text.length := by
    have hlength := hfirst.starts.length_le
    rw [List.length_append] at hlength
    omega
  have hstands : StandsAt text tried.place m.line m.column := by
    rw [hline, hcolumn]
    exact standsAt_take hle
  refine ⟨tried.place, hstands, fun k hk => hk.unique hstands,
    ⟨front, bad, good, rest, hfirst, by omega, by omega⟩, fun j hj => ?_⟩
  obtain ⟨more, es, hes⟩ := hfirst.exists_events hviable
  rw [← hplace] at hes
  refine ⟨(text.take tried.place).drop j ++ more, es, ?_⟩
  have htake : text.take j = (text.take tried.place).take j := by rw [List.take_take, Nat.min_eq_left hj]
  rw [htake, ← List.append_assoc, List.take_append_drop]
  exact hes

/-- The line of a place is counted by `\n` alone, so a text whose second line begins behind a `\r` is
    reported in line 1; the place is behind the bracket, where a frequency, a realm or a scope may follow.
    -/
theorem mismatch_place_bracket :
    ∃ m, events "#\rvariable[".toList = .error m ∧ m.line = 1 ∧ m.column = 12 ∧
      ∃ more es, events ("#\rvariable[".toList.take 11 ++ more) = .ok es := by
  have hreport : (match events "#\rvariable[".toList with
      | .error m => decide (m.line = 1 ∧ m.column = 12)
      | .ok _ => false) = true := by decide +kernel
  cases h : events "#\rvariable[".toList with
  | ok es =>
      rw [h] at hreport
      exact nomatch hreport
  | error m =>
      rw [h] at hreport
      obtain ⟨hline, hcolumn⟩ := of_decide_eq_true hreport
      obtain ⟨n, -, hunique, -, hmore⟩ := mismatch_place h
      have hstands : StandsAt "#\rvariable[".toList 11 m.line m.column := by
        rw [hline, hcolumn]
        exact ⟨by decide, [], "#\rvariable[".toList, rfl, .inl rfl, by decide, rfl, rfl⟩
      exact ⟨m, rfl, hline, hcolumn, hmore 11 (Nat.le_of_eq (hunique 11 hstands))⟩

end FacetQuery.Selection

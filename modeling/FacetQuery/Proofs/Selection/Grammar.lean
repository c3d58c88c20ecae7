import FacetQuery.Proofs.Selection.Forms

/-!
# `FacetQuery.Proofs.Selection.Grammar` — reading accepts exactly the declared grammar

A line is read as a statement, or as none, exactly when the grammar declares it so (`readLine_eq_ok_iff`);
a text exactly when each of its lines is (`statements_eq_ok_iff`). That a text is cut into lines at its
breaks is said here on its own (`CutText`), without the fold that does the cutting.

The grammar and the reader share two things: the classes of characters and the nodes of a statement. Both are
told here apart from the reader: a word is a text over `wordAlphabet`, which lists its letters one by one
(`isWord_iff`), and `Statement.events` gives what `StatementNodes` declares (`statementNodes_iff`).

Main statement: `events_eq_ok_iff`.
-/

namespace FacetQuery.Selection

/-! ## The word class -/

theorem toNat_lt_of_isAlpha {c : Char} (h : c.isAlpha = true) : c.toNat < 128 := by
  rcases (Bool.or_eq_true c.isUpper c.isLower).mp h with hupper | hlower
  · have hlast : c.val ≤ 'Z'.val := (of_decide_eq_true hupper).2
    exact Nat.lt_of_le_of_lt (UInt32.le_iff_toNat_le.mp hlast) (by decide)
  · have hlast : c.val ≤ 'z'.val := of_decide_eq_true ((Bool.and_eq_true _ _).mp hlower).2
    exact Nat.lt_of_le_of_lt (UInt32.le_iff_toNat_le.mp hlast) (by decide)

theorem toNat_lt_of_isWordChar {c : Char} (h : isWordChar c = true) : c.toNat < 128 := by
  simp only [isWordChar, Bool.or_eq_true, beq_iff_eq] at h
  rcases h with ((halphanum | rfl) | rfl) | rfl
  · rcases (Bool.or_eq_true c.isAlpha c.isDigit).mp halphanum with halpha | hdigit
    · exact toNat_lt_of_isAlpha halpha
    · exact Nat.lt_of_le_of_lt (Char.isDigit_iff_toNat.mp hdigit).2 (by decide)
  all_goals decide

/-- The word class is the alphabet that the grammar declares. -/
theorem isWordChar_iff_mem_wordAlphabet {c : Char} : isWordChar c = true ↔ c ∈ wordAlphabet := by
  have hletters : wordAlphabet.all isWordChar = true := by decide +kernel
  -- no character beyond these is a word character, so the other direction is a bounded check
  have hall : ∀ n < 128, isWordChar (Char.ofNat n) = true → Char.ofNat n ∈ wordAlphabet := by
    decide +kernel
  refine ⟨fun h => ?_, List.all_eq_true.mp hletters c⟩
  have hc := hall c.toNat (toNat_lt_of_isWordChar h)
  rw [Char.ofNat_toNat] at hc
  exact hc h

theorem isWord_iff {cs : List Char} : IsWord cs ↔ cs ≠ [] ∧ ∀ c ∈ cs, c ∈ wordAlphabet := by
  simp only [IsWord, AllIn, isWordChar_iff_mem_wordAlphabet]

/-! ## Lines of a text -/

/-- A text without a character of a break. -/
def Unbroken (line : List Char) : Prop := ∀ c ∈ line, c ≠ '\n' ∧ c ≠ '\r'

/-- A text and its lines. A line ends at `\n`, at `\r\n`, which is one break, or at a `\r` that no `\n`
    follows. -/
inductive CutText : List Char → List (List Char) → Prop
  | last {line} (hl : Unbroken line) : CutText line [line]
  | lineFeed {line rest lines} (hl : Unbroken line) (hr : CutText rest lines) :
      CutText (line ++ '\n' :: rest) (line :: lines)
  | carriageReturnLineFeed {line rest lines} (hl : Unbroken line) (hr : CutText rest lines) :
      CutText (line ++ '\r' :: '\n' :: rest) (line :: lines)
  | carriageReturn {line rest lines} (hl : Unbroken line) (hn : rest.head? ≠ some '\n')
      (hr : CutText rest lines) : CutText (line ++ '\r' :: rest) (line :: lines)

theorem unbroken_nil : Unbroken [] := fun _ h => nomatch h

namespace Lines

/-- What holds no break only makes the first line longer. -/
theorem ofText_unbroken {line : List Char} (hl : Unbroken line) (rest : List Char) :
    ofText (line ++ rest) = ⟨line ++ (ofText rest).first, (ofText rest).later⟩ := by
  induction line with
  | nil => rfl
  | cons c cs ih =>
      have hc := hl c (by simp)
      rw [List.cons_append, ofText_cons, ih fun d hd => hl d (List.mem_cons_of_mem c hd)]
      unfold cons
      rw [if_neg hc.1, if_neg hc.2, List.cons_append]

theorem ofText_line {line : List Char} (hl : Unbroken line) : ofText line = ⟨line, []⟩ := by
  have hline := ofText_unbroken hl []
  rwa [List.append_nil, ofText_nil, List.append_nil] at hline

/-- A break in front of everything is a `\n`. -/
theorem head?_of_ofText {text next : List Char} {later : List (Break × List Char)}
    (h : ofText text = ⟨[], (.lineFeed, next) :: later⟩) : text.head? = some '\n' := by
  cases text with
  | nil => exact nomatch h
  | cons c cs =>
      rw [ofText_cons] at h
      unfold cons at h
      split at h
      · next hc => rw [hc, List.head?_cons]
      · split at h
        · split at h
          · exact nomatch h
          · exact nomatch h
        · exact nomatch h

/-- A break stands behind a line, not in it. -/
theorem ofText_behind (brk : Break) {line rest : List Char} (hl : Unbroken line)
    (hn : brk = .carriageReturn → rest.head? ≠ some '\n') :
    ofText (line ++ (brk.chars ++ rest)) = ⟨line, (brk, (ofText rest).first) :: (ofText rest).later⟩ := by
  have hbreak : ofText (brk.chars ++ rest) = ⟨[], (brk, (ofText rest).first) :: (ofText rest).later⟩ := by
    cases brk with
    | lineFeed => rfl
    | carriageReturnLineFeed => rfl
    | carriageReturn =>
        show cons '\r' (ofText rest) = _
        unfold cons
        rw [if_neg (by decide), if_pos rfl]
        split
        · next heq => exact absurd (head?_of_ofText heq) (hn rfl)
        · next heq => rw [heq]
  rw [ofText_unbroken hl, hbreak, List.append_nil]

theorem toList_ofText_behind (brk : Break) {line rest : List Char} {lines : List (List Char)}
    (hl : Unbroken line) (hn : brk = .carriageReturn → rest.head? ≠ some '\n')
    (h : (ofText rest).toList = lines) : (ofText (line ++ (brk.chars ++ rest))).toList = line :: lines := by
  rw [ofText_behind brk hl hn, ← h]
  rfl

/-- The fold over a text cuts it at its breaks. -/
theorem toList_ofText {text : List Char} {lines : List (List Char)} (h : CutText text lines) :
    (ofText text).toList = lines := by
  induction h with
  | last hl =>
      rw [ofText_line hl]
      rfl
  | lineFeed hl _ ih => exact toList_ofText_behind .lineFeed hl nofun ih
  | carriageReturnLineFeed hl _ ih => exact toList_ofText_behind .carriageReturnLineFeed hl nofun ih
  | carriageReturn hl hn _ ih => exact toList_ofText_behind .carriageReturn hl (fun _ => hn) ih

end Lines

theorem CutText.cons {c : Char} {cs : List Char} {lines : List (List Char)} (hc : c ≠ '\n' ∧ c ≠ '\r')
    (h : CutText cs lines) : ∃ lines', CutText (c :: cs) lines' := by
  have hcons : ∀ {line}, Unbroken line → Unbroken (c :: line) := by
    intro line hl d hd
    rcases List.mem_cons.mp hd with rfl | hd
    · exact hc
    · exact hl d hd
  cases h with
  | last hl => exact ⟨_, .last (hcons hl)⟩
  | lineFeed hl hr => exact ⟨_, .lineFeed (hcons hl) hr⟩
  | carriageReturnLineFeed hl hr => exact ⟨_, .carriageReturnLineFeed (hcons hl) hr⟩
  | carriageReturn hl hn hr => exact ⟨_, .carriageReturn (hcons hl) hn hr⟩

/-- Every text has lines. -/
theorem exists_cutText : ∀ text : List Char, ∃ lines, CutText text lines
  | [] => ⟨_, .last unbroken_nil⟩
  | c :: cs => by
      obtain ⟨lines, hlines⟩ := exists_cutText cs
      by_cases hn : c = '\n'
      · subst hn
        exact ⟨_, .lineFeed unbroken_nil hlines⟩
      by_cases hr : c = '\r'
      · subst hr
        match cs with
        | [] => exact ⟨_, .carriageReturn unbroken_nil (by simp) hlines⟩
        | d :: ds =>
            by_cases hd : d = '\n'
            · subst hd
              -- the two characters are one break, so the text goes on behind both of them
              obtain ⟨lines', hlines'⟩ := exists_cutText ds
              exact ⟨_, .carriageReturnLineFeed unbroken_nil hlines'⟩
            · exact ⟨_, .carriageReturn unbroken_nil (by simpa using hd) hlines⟩
      · exact hlines.cons ⟨hn, hr⟩
termination_by text => text.length

/-- A text has one list of lines, the one that the fold over it makes. -/
theorem cutText_iff {text : List Char} {lines : List (List Char)} :
    CutText text lines ↔ (Lines.ofText text).toList = lines := by
  refine ⟨Lines.toList_ofText, fun h => ?_⟩
  obtain ⟨lines', hlines'⟩ := exists_cutText text
  rwa [← h, Lines.toList_ofText hlines']

/-! ## One line -/

theorem readLine_of_lineText {line : List Char} {s : Option Statement} (h : LineText line s) :
    readLine line = .ok s := by
  cases h with
  | blank hb =>
      have hend : (Cursor.passWhile ⟨0, line⟩ isBlank).rest = [] := by
        show line.dropWhile isBlank = []
        rw [← List.append_nil line, hb.dropWhile_append, List.dropWhile_nil]
      simp only [readLine, hend]
  | @comment blanks rest hb =>
      have hend : (Cursor.passWhile ⟨0, blanks ++ '#' :: rest⟩ isBlank).rest = '#' :: rest := by
        show (blanks ++ '#' :: rest).dropWhile isBlank = '#' :: rest
        rw [hb.dropWhile_append]
        exact Halts.dropWhile_eq (halts_cons.mpr (by decide))
      simp only [readLine, hend]
  | @statement blanks text s hb hs =>
      obtain ⟨c, cs, rfl, hc⟩ := hs.exists_cons
      have hend : (Cursor.passWhile ⟨0, blanks ++ c :: cs⟩ isBlank).rest = c :: cs := by
        show (blanks ++ c :: cs).dropWhile isBlank = c :: cs
        rw [hb.dropWhile_append]
        exact Halts.dropWhile_eq (halts_cons.mpr (isBlank_eq_false_of_isWordChar hc))
      -- the statement is read to the end of the line, whatever the cursor has passed before
      obtain ⟨⟨m, rest⟩, tried, hread, hrest⟩ := Reader.Reads.statement hs _ .empty hend
      subst hrest
      unfold readLine
      simp only [hread]
      split
      · next hnil => exact nomatch hend.symm.trans hnil
      · next hhash =>
          injection hend.symm.trans hhash with hcc _
          subst hcc
          exact absurd hc (by decide)
      · rfl

theorem lineText_of_readLine {line : List Char} {s : Option Statement} (h : readLine line = .ok s) :
    LineText line s := by
  have hsplit : line
      = line.takeWhile isBlank ++ (Cursor.passWhile ⟨0, line⟩ isBlank).rest :=
    List.takeWhile_append_dropWhile.symm
  have hblanks := allIn_takeWhile isBlank line
  unfold readLine at h
  simp only at h
  split at h
  · next hnil =>
      injection h with h
      subst h
      rw [hnil, List.append_nil] at hsplit
      exact .blank (hsplit ▸ hblanks)
  · next rest hhash =>
      injection h with h
      subst h
      rw [hsplit, hhash]
      exact .comment hblanks
  · split at h
    -- a statement counts only if nothing of the line is left behind it
    · next s' m tried hread =>
        injection h with h
        subst h
        obtain ⟨text, htext, hrest⟩ := Reader.statement_yields _ _ _ _ _ hread
        rw [hsplit, hrest, List.append_nil]
        exact .statement hblanks htext
    · exact nomatch h
    · exact nomatch h

/-- A line is read exactly as the grammar declares it. -/
theorem readLine_eq_ok_iff {line : List Char} {s : Option Statement} :
    readLine line = .ok s ↔ LineText line s :=
  ⟨lineText_of_readLine, readLine_of_lineText⟩

/-! ## A whole text -/

theorem readFrom_eq_ok_iff {start : Nat} {line : List Char} {later : List (Break × List Char)}
    {ss : List Statement} :
    readFrom start line later = .ok ss ↔ LinesText (line :: later.map (·.2)) ss := by
  induction later generalizing start line ss with
  | nil =>
      constructor
      · intro h
        unfold readFrom at h
        split at h
        · exact nomatch h
        · next s hs =>
            injection h with h
            rw [← h, ← List.append_nil s.toList]
            exact .cons (lineText_of_readLine hs) .nil
      · intro h
        cases h with
        | cons hl hr =>
            cases hr
            rw [readFrom, readLine_of_lineText hl]
            simp
  | cons next later ih =>
      obtain ⟨brk, next⟩ := next
      constructor
      · intro h
        unfold readFrom at h
        split at h
        · exact nomatch h
        · next s hs =>
            cases hrest : readFrom (start + line.length + brk.chars.length) next later with
            | error tried => rw [hrest] at h; exact nomatch h
            | ok rest =>
                rw [hrest] at h
                injection h with h
                rw [← h]
                exact .cons (lineText_of_readLine hs) (ih.mp hrest)
      · intro h
        cases h with
        | cons hl hr =>
            rw [readFrom, readLine_of_lineText hl]
            simp only [ih.mpr hr]
            rfl

/-- A text is read exactly when it is a selection, and then as its statements. -/
theorem statements_eq_ok_iff {text : List Char} {ss : List Statement} :
    statements text = .ok ss ↔ SelectionText text ss := by
  have hlines := @readFrom_eq_ok_iff 0 (Lines.ofText text).first (Lines.ofText text).later ss
  rw [SelectionText, Lines.toList, ← hlines, statements]
  cases readFrom 0 (Lines.ofText text).first (Lines.ofText text).later with
  | error tried =>
      show (.error _ : Except Mismatch (List Statement)) = .ok ss ↔ _
      simp
  | ok rest =>
      show (.ok rest : Except Mismatch (List Statement)) = .ok ss ↔ _
      simp

/-- A selection told by its lines. -/
theorem selectionText_iff {text : List Char} {ss : List Statement} :
    SelectionText text ss ↔ ∃ lines, CutText text lines ∧ LinesText lines ss := by
  constructor
  · intro h
    exact ⟨_, cutText_iff.mpr rfl, h⟩
  · rintro ⟨lines, hcut, h⟩
    rwa [SelectionText, cutText_iff.mp hcut]

/-! ## The nodes -/

/-- The nodes declared for a statement are the events that stand for it. -/
theorem statementNodes_iff {text : List Char} {es : List Event} :
    StatementNodes text es ↔ ∃ s, StatementText text s ∧ s.events = es := by
  constructor
  · intro h
    cases h with
    | basic h => exact ⟨_, h, rfl⟩
    | byFrequency h => exact ⟨_, h, rfl⟩
    | byScope h => exact ⟨_, h, rfl⟩
    | byRealm h => exact ⟨_, h, rfl⟩
  · rintro ⟨s, h, rfl⟩
    cases s with
    | basic n vs => exact .basic h
    | byFrequency f vs => exact .byFrequency h
    | byScope n v vs => exact .byScope h
    | byRealm r f vs => exact .byRealm h

/-- The nodes declared for a line are those of its statement, if it makes one. -/
theorem lineNodes_iff {line : List Char} {es : List Event} :
    LineNodes line es ↔ ∃ s, LineText line s ∧ s.toList.flatMap Statement.events = es := by
  constructor
  · intro h
    cases h with
    | blank hb => exact ⟨_, .blank hb, rfl⟩
    | comment hb => exact ⟨_, .comment hb, rfl⟩
    | statement hb hs =>
        obtain ⟨s, htext, rfl⟩ := statementNodes_iff.mp hs
        exact ⟨_, .statement hb htext, List.append_nil _⟩
  · rintro ⟨s, h, rfl⟩
    cases h with
    | blank hb => exact .blank hb
    | comment hb => exact .comment hb
    | @statement _ _ s hb hs =>
        show LineNodes _ (s.events ++ [])
        rw [List.append_nil]
        exact .statement hb (statementNodes_iff.mpr ⟨s, hs, rfl⟩)

/-- The nodes declared for lines are those of their statements, in the order of the lines. -/
theorem linesNodes_iff {lines : List (List Char)} {es : List Event} :
    LinesNodes lines es ↔ ∃ ss, LinesText lines ss ∧ ss.flatMap Statement.events = es := by
  constructor
  · intro h
    induction h with
    | nil => exact ⟨[], .nil, rfl⟩
    | cons hl _ ih =>
        obtain ⟨s, hline, rfl⟩ := lineNodes_iff.mp hl
        obtain ⟨ss, hlines, rfl⟩ := ih
        exact ⟨_, .cons hline hlines, List.flatMap_append⟩
  · rintro ⟨ss, h, rfl⟩
    induction h with
    | nil => exact .nil
    | cons hl _ ih =>
        rw [List.flatMap_append]
        exact .cons (lineNodes_iff.mpr ⟨_, hl, rfl⟩) ih

/-- The stream of a selection is that of its statements. -/
theorem events_eq_ok_iff_selectionText {text : List Char} {es : List Event} :
    events text = .ok es ↔ ∃ ss, SelectionText text ss ∧ eventsOf ss = es := by
  rw [events]
  cases hss : statements text with
  | error m =>
      refine ⟨nofun, ?_⟩
      rintro ⟨ss, hsel, -⟩
      exact nomatch hss.symm.trans (statements_eq_ok_iff.mpr hsel)
  | ok ss =>
      constructor
      · intro h
        exact ⟨ss, statements_eq_ok_iff.mp hss, Except.ok.inj h⟩
      · rintro ⟨ts, hsel, rfl⟩
        cases hss.symm.trans (statements_eq_ok_iff.mpr hsel)
        rfl

/-- **Reading is the grammar.** A text has an event stream exactly when each of its lines is blank, a
    comment or one statement, and the stream is then the nodes that the grammar declares for its lines, one
    after the other; these are the events of the statements in the order of the lines. A text is read in one
    way only: its lines, and the statements of its lines, are the ones that were read. -/
theorem events_eq_ok_iff (text : List Char) :
    (∀ es, events text = .ok es ↔ ∃ lines, CutText text lines ∧ LinesNodes lines es) ∧
    (∀ es, events text = .ok es ↔
      ∃ lines ss, CutText text lines ∧ LinesText lines ss ∧ es = ss.flatMap Statement.events) ∧
    (∀ ss, statements text = .ok ss ↔ ∃ lines, CutText text lines ∧ LinesText lines ss) := by
  refine ⟨fun es => ?_, fun es => ?_, fun ss => statements_eq_ok_iff.trans selectionText_iff⟩
  · rw [events_eq_ok_iff_selectionText]
    constructor
    · rintro ⟨ss, hsel, rfl⟩
      obtain ⟨lines, hcut, hlines⟩ := selectionText_iff.mp hsel
      exact ⟨lines, hcut, linesNodes_iff.mpr ⟨ss, hlines, rfl⟩⟩
    · rintro ⟨lines, hcut, hnodes⟩
      obtain ⟨ss, hlines, rfl⟩ := linesNodes_iff.mp hnodes
      exact ⟨ss, selectionText_iff.mpr ⟨lines, hcut, hlines⟩, rfl⟩
  · rw [events_eq_ok_iff_selectionText]
    constructor
    · rintro ⟨ss, hsel, rfl⟩
      obtain ⟨lines, hcut, hlines⟩ := selectionText_iff.mp hsel
      exact ⟨lines, ss, hcut, hlines, rfl⟩
    · rintro ⟨lines, ss, hcut, hlines, rfl⟩
      exact ⟨ss, selectionText_iff.mpr ⟨lines, hcut, hlines⟩, rfl⟩

end FacetQuery.Selection

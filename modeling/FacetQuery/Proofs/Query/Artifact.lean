import FacetQuery.Proofs.Query.Layout

/-!
# `FacetQuery.Proofs.Query.Artifact` — an artifact is no selection

What a conversion yields is never taken for a selection again, in either format and whatever is excluded. A
statement is made of words, separators, brackets and `=`; anything else may only stand behind a `#` that opens the
line. The text form begins with a word and a colon, the JSON form with a brace, so the first line of an artifact is
none of a selection, whatever follows.

A batch depends on this where the artifact of one path is put in the place of another path that is yet to be read.

Main statement: `Conversion.refused_of_rendering`.
-/

namespace FacetQuery

namespace Selection

/-! ## What stands in a statement -/

/-- The characters of statements. -/
def isStatementChar (c : Char) : Bool :=
  isWordChar c || isSeparator c || c == '=' || c == '[' || c == ']'

theorem AllIn.mono {inClass inClass' : Char → Bool} {cs : List Char} (h : AllIn inClass cs)
    (hle : ∀ c, inClass c = true → inClass' c = true) : AllIn inClass' cs :=
  fun c hc => hle c (h c hc)

theorem isStatementChar_of_isSeparator (c : Char) (h : isSeparator c = true) :
    isStatementChar c = true := by
  simp [isStatementChar, h]

theorem IsWord.allIn_statement {w : List Char} (h : IsWord w) : AllIn isStatementChar w :=
  h.2.mono fun c hc => by simp [isStatementChar, hc]

theorem SymbolText.allIn_statement {k : Char} {text : List Char} (h : SymbolText k text)
    (hk : isStatementChar k = true) : AllIn isStatementChar text := by
  cases h with
  | around hb ha =>
      have hblank : ∀ c, isBlank c = true → isStatementChar c = true := fun c hc =>
        isStatementChar_of_isSeparator c (isSeparator_of_isBlank hc)
      exact (hb.mono hblank).append (List.forall_mem_cons.mpr ⟨hk, ha.mono hblank⟩)

theorem MoreText.allIn_statement {text : List Char} {vs : List String} (h : MoreText text vs) :
    AllIn isStatementChar text := by
  induction h with
  | done hs => exact hs.mono isStatementChar_of_isSeparator
  | more _ hs hw _ ih => exact ((hs.mono isStatementChar_of_isSeparator).append hw.allIn_statement).append ih

theorem ValuesText.allIn_statement {text : List Char} {vs : List String} (h : ValuesText text vs) :
    AllIn isStatementChar text := by
  cases h with
  | list hs hw hr =>
      exact ((hs.mono isStatementChar_of_isSeparator).append hw.allIn_statement).append
        hr.allIn_statement

/-- Nothing else stands in a statement. -/
theorem StatementText.allIn {text : List Char} {s : Statement} (h : StatementText text s) :
    AllIn isStatementChar text := by
  have hvariable : AllIn isStatementChar variableChars := List.all_eq_true.mp (by decide)
  have hopen : ∀ {o}, SymbolText '[' o → AllIn isStatementChar o := fun ho => ho.allIn_statement rfl
  have hclose : ∀ {c}, SymbolText ']' c → AllIn isStatementChar c := fun hc => hc.allIn_statement rfl
  have hequals : ∀ {eq}, SymbolText '=' eq → AllIn isStatementChar eq :=
    fun heq => heq.allIn_statement rfl
  cases h with
  | basic hn heq hv => exact (hn.allIn_statement.append (hequals heq)).append hv.allIn_statement
  | byFrequency ho hf hc heq hv =>
      exact ((((hvariable.append (hopen ho)).append hf.allIn_statement).append (hclose hc)).append
        (hequals heq)).append hv.allIn_statement
  | byScope ho hn his hw hc heq hv =>
      exact ((((((hvariable.append (hopen ho)).append hn.allIn_statement).append
        (hequals his)).append hw.allIn_statement).append (hclose hc)).append (hequals heq)).append
          hv.allIn_statement
  | byRealm ho hr hc hp hf hd heq hv =>
      exact (((((((hvariable.append (hopen ho)).append hr.allIn_statement).append (hclose hc)).append
        (hopen hp)).append hf.allIn_statement).append (hclose hd)).append (hequals heq)).append
          hv.allIn_statement

/-! ## Texts that are no selections -/

/-- A character that stands in no statement and opens no comment. -/
def IsForeign (c : Char) : Prop := isStatementChar c = false ∧ c ≠ '#' ∧ c ≠ '\n' ∧ c ≠ '\r'

instance (c : Char) : Decidable (IsForeign c) := by unfold IsForeign; infer_instance

theorem IsForeign.isBlank {c : Char} (h : IsForeign c) : isBlank c = false := by
  rw [← Bool.not_eq_true]
  intro hb
  have hstatement := isStatementChar_of_isSeparator c (isSeparator_of_isBlank hb)
  exact Bool.false_ne_true (h.1.symm.trans hstatement)

variable {w rest : List Char} {c : Char}

/-- A word, or nothing, with a foreign character behind it begins no line of a selection. -/
theorem not_lineText (hw : AllIn isWordChar w) (hc : IsForeign c) (s : Option Statement) :
    ¬ LineText (w ++ c :: rest) s := by
  -- the line begins with no blank and no `#`
  have hfirst : ∀ d, (w ++ c :: rest).head? = some d → isBlank d = false ∧ d ≠ '#' := by
    intro d hd
    cases w with
    | nil =>
        cases hd
        exact ⟨hc.isBlank, hc.2.1⟩
    | cons e es =>
        cases hd
        have hword := hw d List.mem_cons_self
        refine ⟨isBlank_eq_false_of_isWordChar hword, ?_⟩
        rintro rfl
        exact nomatch hword
  have hmem : c ∈ w ++ c :: rest := List.mem_append_right w List.mem_cons_self
  generalize hline : w ++ c :: rest = line
  rw [hline] at hfirst hmem
  intro h
  cases h with
  | blank hb => exact Bool.false_ne_true (hc.isBlank.symm.trans (hb c hmem))
  | @comment blanks rest hb =>
      cases blanks with
      | nil => exact (hfirst '#' rfl).2 rfl
      | cons b bs =>
          exact Bool.false_ne_true ((hfirst b rfl).1.symm.trans (hb b List.mem_cons_self))
  | @statement blanks text s hb hs =>
      have hblanks : AllIn isStatementChar blanks := hb.mono fun d hd =>
        isStatementChar_of_isSeparator d (isSeparator_of_isBlank hd)
      exact Bool.false_ne_true (hc.1.symm.trans ((hblanks.append hs.allIn) c hmem))

/-- Nor does it begin a selection. -/
theorem not_selectionText (hw : AllIn isWordChar w) (hc : IsForeign c) (ss : List Statement) :
    ¬ SelectionText (w ++ c :: rest) ss := by
  intro h
  have hunbroken : Unbroken (w ++ [c]) := by
    intro d hd
    rcases List.mem_append.mp hd with hd | hd
    · have hword := hw d hd
      constructor
      · rintro rfl
        exact nomatch hword
      · rintro rfl
        exact nomatch hword
    · cases List.mem_singleton.mp hd
      exact hc.2.2
  have hlines : (Lines.ofText (w ++ c :: rest)).toList =
      (w ++ c :: (Lines.ofText rest).first) :: (Lines.ofText rest).later.map (·.2) := by
    have hcut := Lines.ofText_unbroken hunbroken rest
    rw [List.append_assoc, List.singleton_append] at hcut
    rw [hcut, Lines.toList, List.append_assoc, List.singleton_append]
  rw [SelectionText, hlines] at h
  cases h with
  | cons hl _ => exact not_lineText hw hc _ hl

end Selection

/-! ## How an artifact begins -/

open Selection

/-- An artifact begins with a word, or nothing, and a foreign character. -/
theorem Query.Worded.written_begins {q : Query} (hq : q.Worded) (hne : q ≠ .empty) (format : Format) :
    ∃ w c rest, (q.written format).toList = w ++ c :: rest ∧ AllIn isWordChar w ∧ IsForeign c := by
  cases format with
  | json =>
      have hbrace : ∃ rest, (q.written .json).toList = [] ++ '\x7b' :: rest := by
        simp only [written, Json.pretty, toJson, Json.write, String.toList_append, String.toList_ofList]
        exact ⟨_, rfl⟩
      obtain ⟨rest, hrest⟩ := hbrace
      exact ⟨[], '\x7b', rest, hrest, List.forall_mem_nil _, by decide⟩
  | text =>
      obtain ⟨facets, requests⟩ := q
      cases facets with
      | cons f fs =>
          have hname : ∃ rest, (written ⟨f :: fs, requests⟩ .text).toList =
              f.name.toList ++ ':' :: rest := by
            simp only [written, layout, lines, List.map_cons, List.cons_append, String.join_cons,
              String.toList_append, Facet.toList_shown, List.append_assoc]
            exact ⟨_, rfl⟩
          obtain ⟨rest, hrest⟩ := hname
          exact ⟨_, ':', rest, hrest, (hq.facets f List.mem_cons_self).name.2, by decide⟩
      | nil =>
          cases requests with
          | nil => exact absurd rfl hne
          | cons r rs =>
              have hhead : ∃ rest, (written ⟨[], r :: rs⟩ .text).toList =
                  "requests".toList ++ ':' :: rest := by
                simp only [written, layout, lines, List.map_nil, List.nil_append, List.isEmpty_cons,
                  Bool.false_eq_true, if_false, List.map_cons, String.join_cons, String.toList_append]
                exact ⟨_, rfl⟩
              obtain ⟨rest, hrest⟩ := hhead
              have hword : AllIn isWordChar "requests".toList := List.all_eq_true.mp (by decide)
              exact ⟨_, ':', rest, hrest, hword, by decide⟩

namespace Conversion

variable {c d : Conversion} {text rendering : String} {x : Exclusions} {format : Format}

/-- **An artifact is refused by the grammar.** What any conversion of any text yields is no selection, whatever
    was excluded and in whatever format it is. -/
theorem refused_of_rendering (h : (c.process text x format).value = (.ok rendering, d)) :
    ∃ m, Selection.events rendering.toList = .error m := by
  obtain ⟨ss, hsel, hquery, hrender⟩ := query_of_process h
  have hworded : d.query.Worded := hquery ▸ Query.worded_ofSelection hsel x
  have hne : d.query ≠ .empty := by
    intro hempty
    rw [Query.render_eq_none_iff.mpr hempty] at hrender
    exact nomatch hrender
  obtain ⟨w, mark, rest, hbegins, hw, hmark⟩ := hworded.written_begins hne format
  rw [Query.written_of_render hrender] at hbegins
  cases hevents : Selection.events rendering.toList with
  | error m => exact ⟨m, rfl⟩
  | ok es =>
      obtain ⟨ts, hts, -, -⟩ := exists_statements_of_events hevents
      rw [hbegins] at hts
      exact absurd hts (not_selectionText hw hmark ts)

end Conversion

end FacetQuery

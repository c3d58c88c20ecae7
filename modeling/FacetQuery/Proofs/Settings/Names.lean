import FacetQuery.Proofs.Query.Artifact
import FacetQuery.Proofs.Selection.Probing
import FacetQuery.Settings

/-!
# `FacetQuery.Proofs.Settings.Names` — the names that can be excluded are those that selections use

A name to exclude is judged before any text is read, and what is refused is called a word that can never name a
facet. That says something of all texts: none that the grammar accepts has the word as the name of a basic line,
or of a scope. In the other direction it says that nothing is refused without need.

Both hold because a word is all that the grammar asks of a name, in either place. The word `variable` is no
exception, although it opens the bracketed lines, since a bracketed line goes on with a bracket and a basic one
with `=`. So for each name there are two texts of one line, `name=a` and `variable[name=a]=a`. The characters of
words are listed twice, for the settings and for the grammar; the lists agree
(`Settings.isNameChar_eq_isWordChar`).

Main statement: `Settings.names_accepted`.
-/

namespace FacetQuery

/-! ## The names in selections -/

namespace Selection

/-- Some text that the grammar accepts has the name in its stream. -/
def Occurs (n : String) : Prop := ∃ text es, events text = .ok es ∧ Event.name n ∈ es

/-- Names stand on basic lines and in scopes. -/
theorem Statement.name_mem_events {s : Statement} {n : String} :
    Event.name n ∈ s.events ↔ (∃ vs, s = .basic n vs) ∨ ∃ v vs, s = .byScope n v vs := by
  cases s with
  | basic m vs => simp [events, eq_comm]
  | byFrequency f vs => simp [events]
  | byScope m v vs => simp [events, eq_comm]
  | byRealm r f vs => simp [events]

/-- A name is in the stream of a selection iff a basic line or a scope has it. -/
theorem occurs_iff {n : String} : Occurs n ↔ ∃ text ss, SelectionText text ss ∧
    ∃ s ∈ ss, (∃ vs, s = .basic n vs) ∨ ∃ v vs, s = .byScope n v vs := by
  simp only [Occurs, events_eq_ok_iff_selectionText, ← Statement.name_mem_events]
  constructor
  · rintro ⟨text, es, ⟨ss, hsel, rfl⟩, hname⟩
    exact ⟨text, ss, hsel, List.mem_flatMap.mp hname⟩
  · rintro ⟨text, ss, hsel, hname⟩
    exact ⟨text, _, ⟨ss, hsel, rfl⟩, List.mem_flatMap.mpr hname⟩

/-- Whatever stands around it, a name is a word. -/
theorem StatementText.isWord_of_name {text : List Char} {s : Statement} (h : StatementText text s) {n : String}
    (hn : Event.name n ∈ s.events) : IsWord n.toList := by
  rcases Statement.name_mem_events.mp hn with ⟨vs, rfl⟩ | ⟨v, vs, rfl⟩
  · cases h with
    | basic hword => exact hword.toList_ofList
  · cases h with
    | byScope _ hword => exact hword.toList_ofList

theorem Occurs.isWord {n : String} (h : Occurs n) : IsWord n.toList := by
  obtain ⟨text, ss, hsel, s, hs, hform⟩ := occurs_iff.mp h
  obtain ⟨line, hline⟩ := LinesText.exists_statementText hsel s hs
  exact hline.isWord_of_name (Statement.name_mem_events.mpr hform)

/-! ## A text for every word -/

/-- A statement alone is a selection. -/
theorem StatementText.selectionText {text : List Char} {s : Statement} (h : StatementText text s) :
    SelectionText text [s] := by
  have hunbroken : Unbroken text := by
    intro c hc
    have hchar := h.allIn c hc
    constructor
    · rintro rfl
      exact absurd hchar (by decide)
    · rintro rfl
      exact absurd hchar (by decide)
  unfold SelectionText
  rw [Lines.ofText_line hunbroken]
  exact .cons (.statement (allIn_nil _) h) .nil

theorem symbolText_self (k : Char) : SymbolText k [k] := .around (allIn_nil _) (allIn_nil _)

theorem valuesText_letter : ValuesText ['a'] ["a"] :=
  .list (allIn_nil _) Reader.isWord_letter (.done (allIn_nil _))

variable {n : String}

/-- Every word names the facet of a basic line. -/
theorem IsWord.selectionText_basic (hn : IsWord n.toList) :
    SelectionText (n.toList ++ ['='] ++ ['a']) [.basic n ["a"]] := by
  have htext := StatementText.basic hn (symbolText_self '=') valuesText_letter
  rw [String.ofList_toList] at htext
  exact htext.selectionText

/-- Every word names the facet of a scope. -/
theorem IsWord.selectionText_scope (hn : IsWord n.toList) :
    SelectionText (variableChars ++ ['['] ++ n.toList ++ ['='] ++ ['a'] ++ [']'] ++ ['='] ++ ['a'])
      [.byScope n "a" ["a"]] := by
  have htext := StatementText.byScope (symbolText_self '[') hn (symbolText_self '=') Reader.isWord_letter
    (symbolText_self ']') (symbolText_self '=') valuesText_letter
  rw [String.ofList_toList] at htext
  exact htext.selectionText

/-- The names of basic lines are the words. -/
theorem exists_basic_iff : (∃ text ss, SelectionText text ss ∧ ∃ vs, .basic n vs ∈ ss) ↔ IsWord n.toList := by
  constructor
  · rintro ⟨text, ss, hsel, vs, hs⟩
    exact Occurs.isWord (occurs_iff.mpr ⟨text, ss, hsel, _, hs, .inl ⟨vs, rfl⟩⟩)
  · intro hn
    exact ⟨_, _, hn.selectionText_basic, _, List.mem_singleton.mpr rfl⟩

/-- So are the names of scopes. -/
theorem exists_scope_iff :
    (∃ text ss, SelectionText text ss ∧ ∃ v vs, .byScope n v vs ∈ ss) ↔ IsWord n.toList := by
  constructor
  · rintro ⟨text, ss, hsel, v, vs, hs⟩
    exact Occurs.isWord (occurs_iff.mpr ⟨text, ss, hsel, _, hs, .inr ⟨v, vs, rfl⟩⟩)
  · intro hn
    exact ⟨_, _, hn.selectionText_scope, _, _, List.mem_singleton.mpr rfl⟩

theorem occurs_iff_isWord : Occurs n ↔ IsWord n.toList := by
  constructor
  · exact Occurs.isWord
  · intro hn
    obtain ⟨text, ss, hsel, vs, hs⟩ := exists_basic_iff.mpr hn
    exact occurs_iff.mpr ⟨text, ss, hsel, _, hs, .inl ⟨vs, rfl⟩⟩

end Selection

/-! ## The names in settings -/

namespace Settings

open Selection

theorem isFacetName_iff_isWord {n : String} : isFacetName n = true ↔ IsWord n.toList := by
  unfold isFacetName isWordOf IsWord AllIn
  simp [isNameChar_eq_isWordChar]

theorem isFacetName_iff_occurs {n : String} : isFacetName n = true ↔ Occurs n := by
  rw [isFacetName_iff_isWord, occurs_iff_isWord]

/-- The first name that is none decides the fault, before anything else is looked at. -/
theorem validate_eq_facetName_iff {s : Settings} {n : String} :
    s.validate = .error (.facetName n) ↔ s.exclude.find? (!isFacetName ·) = some n := by
  unfold validate
  cases s.exclude.find? (!isFacetName ·) with
  | some m => simp
  | none =>
      cases (s.outputExtension.toList ++ s.inputExtension.toList).find? (!isExtension ·) with
      | some e => simp
      | none => simp

/-- **The names that can be excluded are those that the grammar can read.** Settings are refused for a name iff
    it is the first of the names to exclude that no accepted text has in its stream; the fault says that the
    name can never name a facet. Names that all occur have no say in whether settings are valid. That a name
    occurs means that a text has it on a basic line, and just as well that a text has it in a scope. -/
theorem names_accepted (s : Settings) :
    (∀ n, s.validate = .error (.facetName n) ↔ ∃ before after,
      s.exclude = before ++ n :: after ∧ (∀ m ∈ before, Occurs m) ∧ ¬ Occurs n) ∧
    (∀ n, SettingsFault.message (.facetName n) = "'" ++ n ++ "' can never name a facet") ∧
    ((∀ n ∈ s.exclude, Occurs n) → s.validate = { s with exclude := [] }.validate) ∧
    ∀ n, ({ default with exclude := [n] }.validate = .ok () ↔ Occurs n) ∧
      (Occurs n ↔ ∃ text ss, SelectionText text ss ∧ ∃ vs, .basic n vs ∈ ss) ∧
      (Occurs n ↔ ∃ text ss, SelectionText text ss ∧ ∃ v vs, .byScope n v vs ∈ ss) := by
  refine ⟨fun n => ?_, fun n => rfl, fun hall => ?_, fun n => ⟨?_, ?_, ?_⟩⟩
  · rw [validate_eq_facetName_iff, List.find?_eq_some_iff_append]
    simp only [Bool.not_not, Bool.not_eq_true', ← Bool.not_eq_true, isFacetName_iff_occurs]
    constructor
    · rintro ⟨hn, before, after, hsplit, hbefore⟩
      exact ⟨before, after, hsplit, hbefore, hn⟩
    · rintro ⟨before, after, hsplit, hbefore, hn⟩
      exact ⟨hn, before, after, hsplit, hbefore⟩
  · have hnone : s.exclude.find? (!isFacetName ·) = none := by
      refine List.find?_eq_none.mpr fun n hn => ?_
      simp [isFacetName_iff_occurs.mpr (hall n hn)]
    unfold validate
    rw [hnone]
    rfl
  · rw [validate_eq_ok_iff, ← isFacetName_iff_occurs]
    simp [default]
  · rw [occurs_iff_isWord, exists_basic_iff]
  · rw [occurs_iff_isWord, exists_scope_iff]

end Settings

end FacetQuery

import FacetQuery.Selection.Line
import FacetQuery.Selection.Statement

/-!
# `FacetQuery.Selection.Grammar` — the texts that are selections, declared

Says which texts are lines of a selection and which statement each makes, without a word on how they are
read: no order of alternatives, no longest run. A text is a selection when each of its lines is one
(`SelectionText`), and then its statements are those of its lines, in order.

The nodes that a line puts on the stream are declared in the same way (`StatementNodes`), one sequence for
each form and none by way of `Statement.events`.

## Contents
- The pieces: `wordAlphabet`, `AllIn`, `IsWord`, `SymbolText`, `ValuesText`.
- `StatementText`, the four forms; `LineText`, a line; `SelectionText`, a text by its lines.
- `StatementNodes`, `LineNodes`, `LinesNodes`: what goes on the stream for them.
-/

namespace FacetQuery.Selection

/-! ## Pieces -/

/-- The characters of names and values, one by one. -/
def wordAlphabet : List Char :=
  "ABCDEFGHIJKLMNOPQRSTUVWXYZabcdefghijklmnopqrstuvwxyz0123456789_-*".toList

/-- A text of characters of one class; the empty text is one. -/
def AllIn (inClass : Char → Bool) (cs : List Char) : Prop := ∀ c ∈ cs, inClass c = true

/-- A name or a value: at least one character, all of the word class. -/
def IsWord (cs : List Char) : Prop := cs ≠ [] ∧ AllIn isWordChar cs

/-- A bracket or `=`, with any blanks around it. -/
inductive SymbolText (k : Char) : List Char → Prop
  | around {before after} (hb : AllIn isBlank before) (ha : AllIn isBlank after) :
      SymbolText k (before ++ k :: after)

/-- What follows a value in a list: further values, each behind at least one separator, and perhaps
    separators behind the last. -/
inductive MoreText : List Char → List String → Prop
  | done {seps} (hs : AllIn isSeparator seps) : MoreText seps []
  | more {seps word rest vs} (hne : seps ≠ []) (hs : AllIn isSeparator seps) (hw : IsWord word)
      (hr : MoreText rest vs) : MoreText (seps ++ word ++ rest) (String.ofList word :: vs)

/-- A list of one or more values, perhaps with separators in front. -/
inductive ValuesText : List Char → List String → Prop
  | list {seps word rest vs} (hs : AllIn isSeparator seps) (hw : IsWord word)
      (hr : MoreText rest vs) : ValuesText (seps ++ word ++ rest) (String.ofList word :: vs)

/-! ## Statements and lines -/

/-- The four forms of a statement. -/
inductive StatementText : List Char → Statement → Prop
  | basic {n eq v vs} (hn : IsWord n) (heq : SymbolText '=' eq) (hv : ValuesText v vs) :
      StatementText (n ++ eq ++ v) (.basic (String.ofList n) vs)
  | byFrequency {o f c eq v vs} (ho : SymbolText '[' o) (hf : IsWord f) (hc : SymbolText ']' c)
      (heq : SymbolText '=' eq) (hv : ValuesText v vs) :
      StatementText (variableChars ++ o ++ f ++ c ++ eq ++ v) (.byFrequency (String.ofList f) vs)
  | byScope {o n is w c eq v vs} (ho : SymbolText '[' o) (hn : IsWord n) (his : SymbolText '=' is)
      (hw : IsWord w) (hc : SymbolText ']' c) (heq : SymbolText '=' eq) (hv : ValuesText v vs) :
      StatementText (variableChars ++ o ++ n ++ is ++ w ++ c ++ eq ++ v)
        (.byScope (String.ofList n) (String.ofList w) vs)
  | byRealm {o r c p f d eq v vs} (ho : SymbolText '[' o) (hr : IsWord r) (hc : SymbolText ']' c)
      (hp : SymbolText '[' p) (hf : IsWord f) (hd : SymbolText ']' d) (heq : SymbolText '=' eq)
      (hv : ValuesText v vs) :
      StatementText (variableChars ++ o ++ r ++ c ++ p ++ f ++ d ++ eq ++ v)
        (.byRealm (String.ofList r) (String.ofList f) vs)

/-- A line without its break, and the statement that it makes if it is neither blank nor a comment. -/
inductive LineText : List Char → Option Statement → Prop
  | blank {blanks} (hb : AllIn isBlank blanks) : LineText blanks none
  | comment {blanks rest} (hb : AllIn isBlank blanks) : LineText (blanks ++ '#' :: rest) none
  | statement {blanks text s} (hb : AllIn isBlank blanks) (hs : StatementText text s) :
      LineText (blanks ++ text) (some s)

/-- Lines each of which is a line of a selection, and the statements that they make. -/
inductive LinesText : List (List Char) → List Statement → Prop
  | nil : LinesText [] []
  | cons {line s lines ss} (hl : LineText line s) (hr : LinesText lines ss) :
      LinesText (line :: lines) (s.toList ++ ss)

/-- A selection, and the statements that it makes. -/
def SelectionText (text : List Char) (ss : List Statement) : Prop :=
  LinesText (Lines.ofText text).toList ss

/-! ## Nodes -/

/-- The texts that are statements, and the nodes of each. A basic line ends in `stop` alone; the bracketed
    forms close their values with `variableStop` first. -/
inductive StatementNodes : List Char → List Event → Prop
  | basic {text n vs} (h : StatementText text (.basic n vs)) :
      StatementNodes text ([.name n] ++ vs.map .value ++ [.stop])
  | byFrequency {text f vs} (h : StatementText text (.byFrequency f vs)) :
      StatementNodes text ([.frequency f] ++ vs.map .value ++ [.variableStop, .stop])
  | byScope {text n v vs} (h : StatementText text (.byScope n v vs)) :
      StatementNodes text ([.name n, .value v, .requestStop] ++ vs.map .value ++ [.variableStop, .stop])
  | byRealm {text r f vs} (h : StatementText text (.byRealm r f vs)) :
      StatementNodes text ([.realm r, .frequency f] ++ vs.map .value ++ [.variableStop, .stop])

/-- A line without its break, and its nodes: none for a blank line or a comment. -/
inductive LineNodes : List Char → List Event → Prop
  | blank {blanks} (hb : AllIn isBlank blanks) : LineNodes blanks []
  | comment {blanks rest} (hb : AllIn isBlank blanks) : LineNodes (blanks ++ '#' :: rest) []
  | statement {blanks text es} (hb : AllIn isBlank blanks) (hs : StatementNodes text es) :
      LineNodes (blanks ++ text) es

/-- Lines each of which is a line of a selection, and their nodes, line by line. -/
inductive LinesNodes : List (List Char) → List Event → Prop
  | nil : LinesNodes [] []
  | cons {line es lines rest} (hl : LineNodes line es) (hr : LinesNodes lines rest) :
      LinesNodes (line :: lines) (es ++ rest)

end FacetQuery.Selection

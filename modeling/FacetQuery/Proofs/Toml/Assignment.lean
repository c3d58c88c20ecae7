import FacetQuery.Proofs.Selection.Reading
import FacetQuery.Toml.Document

/-!
# `FacetQuery.Proofs.Toml.Assignment` — a key and its text in a TOML document

A text without quotes, backslashes and control characters is written the same way between any of the four
kinds of quotes, and it is the same text that is read again: there is nothing in it to end it early, to
escape or to reject. So a document of one line that gives such a text to a bare key has one member, which
holds the text character for character (`parse?_assignment`).

## Contents
- `Quotes` and `assignment`: how the line is written.
- Plain texts: `cutString_plain`, `cutLines_plain`, `decodeBasic_plain`, `decodeLiteral_plain`.
- `readValue_quoted`, `key?_bare`, and `parse?_assignment`.
-/

namespace FacetQuery.Toml

open Selection (AllIn Halts)

/-! ## How a text is written -/

/-- The kinds of quotes. -/
inductive Quotes where
  /-- Quotes on one line, with escapes. -/
  | basic
  /-- Quotes on one line, without escapes. -/
  | literal
  /-- Quotes that may stand on different lines, with escapes. -/
  | basicLines
  /-- Quotes that may stand on different lines, without escapes. -/
  | literalLines
  deriving DecidableEq

/-- What stands in front of the text and behind it. -/
def Quotes.mark : Quotes → List Char
  | basic => ['"']
  | literal => ['\'']
  | basicLines => ['"', '"', '"']
  | literalLines => ['\'', '\'', '\'']

/-- A text between quotes. -/
def quoted (q : Quotes) (cs : List Char) : List Char := q.mark ++ cs ++ q.mark

/-- A line that gives a text to a key. -/
def assignment (key : String) (q : Quotes) (text : String) : List Char :=
  key.toList ++ [' ', '=', ' '] ++ quoted q text.toList ++ ['\n']

/-- Characters that stand for themselves between quotes of any kind. -/
def isPlainChar (c : Char) : Bool := !isControl c && c != '"' && c != '\'' && c != '\\'

/-- The text of a key that needs no quotes. -/
def IsBareKey (cs : List Char) : Prop := cs ≠ [] ∧ AllIn isBareKeyChar cs

instance {cs : List Char} : Decidable (IsBareKey cs) :=
  decidable_of_iff (cs ≠ [] ∧ cs.all isBareKeyChar) (by simp [IsBareKey, AllIn])

/-! ## Plain texts -/

section Plain

variable {quote : Char} {escapes lines : Bool} {cs rest : List Char}

theorem isPlainChar_iff {c : Char} :
    isPlainChar c = true ↔ isControl c = false ∧ c ≠ '"' ∧ c ≠ '\'' ∧ c ≠ '\\' := by
  simp [isPlainChar, and_assoc]

theorem ne_of_isPlainChar {c : Char} (h : isPlainChar c = true) (hq : isPlainChar quote = false) :
    c ≠ quote := by
  rintro rfl
  exact Bool.false_ne_true (hq.symm.trans h)

/-- Letters, digits, underscores and hyphens stand for themselves. -/
theorem isPlainChar_of_isBareKeyChar {c : Char} (h : isBareKeyChar c = true) : isPlainChar c = true := by
  have hne (d : Char) (hd : isBareKeyChar d = false) : c ≠ d := by
    rintro rfl
    exact Bool.false_ne_true (hd.symm.trans h)
  have hcontrol : isControl c = false := by
    rw [isControl, Bool.or_eq_false_iff, Bool.and_eq_false_iff]
    refine ⟨.inl (decide_eq_false fun hsmall => ?_), by simpa using hne '\x7f' (by decide)⟩
    have hnone : ∀ n < 0x20, isBareKeyChar (Char.ofNat n) = false := by decide
    exact hne (Char.ofNat c.toNat) (hnone c.toNat hsmall) (Char.ofNat_toNat c).symm
  exact isPlainChar_iff.mpr
    ⟨hcontrol, hne '"' (by decide), hne '\'' (by decide), hne '\\' (by decide)⟩

theorem cutString_cons {c : Char} (hquote : c ≠ quote) (hslash : c ≠ '\\') (done : List Char) :
    cutString quote escapes done (c :: cs) = cutString quote escapes (c :: done) cs := by
  rw [cutString.eq_def]
  simp [hquote, hslash]

theorem cutString_plain (hq : isPlainChar quote = false) (h : AllIn isPlainChar cs) (done : List Char) :
    cutString quote escapes done (cs ++ quote :: rest) = some (done.reverse ++ cs, rest) := by
  induction cs generalizing done with
  | nil => simp [cutString.eq_def]
  | cons c cs ih =>
      have hc := h c List.mem_cons_self
      rw [List.cons_append, cutString_cons (ne_of_isPlainChar hc hq) (ne_of_isPlainChar hc (by decide)),
        ih fun d hd => h d (List.mem_cons_of_mem c hd)]
      simp

theorem quoteRun_of_ne {c : Char} (h : c ≠ quote) : quoteRun quote (c :: cs) = 0 := by
  simp [quoteRun, h]

/-- Three quotes end a text, if no fourth follows. -/
theorem quoteRun_three (h : rest.head? ≠ some quote) :
    quoteRun quote (quote :: quote :: quote :: rest) = 3 := by
  cases rest with
  | nil => simp [quoteRun]
  | cons c rest =>
      have hc : c ≠ quote := fun heq => h (congrArg some heq)
      simp [quoteRun, hc]

theorem cutLines_cons {c : Char} (hquote : c ≠ quote) (hslash : c ≠ '\\') (done : List Char) :
    cutLines quote escapes done (c :: cs) = cutLines quote escapes (c :: done) cs := by
  rw [cutLines.eq_def]
  simp [quoteRun_of_ne hquote, hslash]

theorem cutLines_plain (hq : isPlainChar quote = false) (hrest : rest.head? ≠ some quote)
    (h : AllIn isPlainChar cs) (done : List Char) :
    cutLines quote escapes done (cs ++ quote :: quote :: quote :: rest) = some (done.reverse ++ cs, rest) := by
  induction cs generalizing done with
  | nil =>
      unfold cutLines
      simp [quoteRun_three hrest]
  | cons c cs ih =>
      have hc := h c List.mem_cons_self
      rw [List.cons_append, cutLines_cons (ne_of_isPlainChar hc hq) (ne_of_isPlainChar hc (by decide)),
        ih fun d hd => h d (List.mem_cons_of_mem c hd)]
      simp

theorem not_break_of_isPlainChar {c : Char} (h : isPlainChar c = true) : c ≠ '\n' ∧ c ≠ '\r' :=
  ⟨ne_of_isPlainChar h (by decide), ne_of_isPlainChar h (by decide)⟩

theorem decodeBasic_plain (h : AllIn isPlainChar cs) (done : List Char) :
    decodeBasic lines false done cs = some (done.reverse ++ cs) := by
  induction cs generalizing done with
  | nil => simp [decodeBasic]
  | cons c cs ih =>
      have hc := h c List.mem_cons_self
      have hslash : c ≠ '\\' := ne_of_isPlainChar hc (by decide)
      obtain ⟨hline, hreturn⟩ := not_break_of_isPlainChar hc
      have hcontrol := (isPlainChar_iff.mp hc).1
      rw [decodeBasic]
      · simp [hcontrol, hslash, ih fun d hd => h d (List.mem_cons_of_mem c hd)]
      all_goals simp_all

theorem decodeLiteral_plain (h : AllIn isPlainChar cs) (done : List Char) :
    decodeLiteral lines done cs = some (done.reverse ++ cs) := by
  induction cs generalizing done with
  | nil => simp [decodeLiteral]
  | cons c cs ih =>
      have hc := h c List.mem_cons_self
      obtain ⟨hline, hreturn⟩ := not_break_of_isPlainChar hc
      have hcontrol := (isPlainChar_iff.mp hc).1
      rw [decodeLiteral]
      · simp [hcontrol, ih fun d hd => h d (List.mem_cons_of_mem c hd)]
      all_goals simp_all

theorem dropBreak_plain (h : AllIn isPlainChar cs)
    (hbreak : quote ≠ '\n' ∧ quote ≠ '\r') : dropBreak (cs ++ quote :: rest) = cs ++ quote :: rest := by
  have hhead : ∀ c ∈ (cs ++ quote :: rest).head?, c ≠ '\n' ∧ c ≠ '\r' := by
    cases cs with
    | nil => simpa using hbreak
    | cons c cs => simpa using not_break_of_isPlainChar (h c List.mem_cons_self)
  unfold dropBreak
  split <;> simp_all

end Plain

/-! ## The line -/

section Line

variable {cs rest : List Char}

theorem lineString_plain {quote : Char} (hq : isPlainChar quote = false) (h : AllIn isPlainChar cs)
    (rest : List Char) :
    lineString quote (cs ++ quote :: rest) = some (String.ofList cs, rest) := by
  rw [lineString, cutString_plain hq h]
  by_cases hquote : quote = '"' <;> simp [hquote, decodeBasic_plain h, decodeLiteral_plain h]

theorem linesString_plain {quote : Char} (hq : isPlainChar quote = false)
    (hbreak : quote ≠ '\n' ∧ quote ≠ '\r') (hrest : rest.head? ≠ some quote) (h : AllIn isPlainChar cs) :
    linesString quote (cs ++ quote :: quote :: quote :: rest) = some (String.ofList cs, rest) := by
  rw [linesString, dropBreak_plain h hbreak, cutLines_plain hq hrest h]
  by_cases hquote : quote = '"' <;> simp [hquote, decodeBasic_plain h, decodeLiteral_plain h]

/-- Behind one quote a plain text is not taken for one that begins with three. -/
theorem anyString_plain {quote : Char} (hq : isPlainChar quote = false) (h : AllIn isPlainChar cs)
    (hrest : rest.head? ≠ some quote) :
    anyString quote (cs ++ quote :: rest) = some (String.ofList cs, rest) := by
  have hline := lineString_plain hq h rest
  unfold anyString
  split
  · next a b r heq =>
      rw [if_neg]
      · exact hline
      · rintro ⟨rfl, rfl⟩
        match cs, heq with
        | [], heq =>
            cases heq
            exact hrest rfl
        | c :: cs, heq =>
            exact ne_of_isPlainChar (h c List.mem_cons_self) hq (List.cons.inj heq).1
  · exact hline

/-- A plain text is read off between quotes of any kind. -/
theorem readValue_quoted (q : Quotes) (h : AllIn isPlainChar cs) (fuel depth : Nat) (rest : List Char) :
    readValue (fuel + 1) depth (quoted q cs ++ '\n' :: rest) =
      some (.text (String.ofList cs), '\n' :: rest) := by
  have hline (quote : Char) (hq : isPlainChar quote = false) (hbreak : '\n' ≠ quote) :
      anyString quote (cs ++ quote :: '\n' :: rest) = some (String.ofList cs, '\n' :: rest) :=
    anyString_plain hq h (by simpa using hbreak)
  have hlines (quote : Char) (hq : isPlainChar quote = false) (hbreak : quote ≠ '\n' ∧ quote ≠ '\r') :
      linesString quote (cs ++ quote :: quote :: quote :: '\n' :: rest) =
        some (String.ofList cs, '\n' :: rest) :=
    linesString_plain hq hbreak (by simpa using hbreak.1.symm) h
  cases q with
  | basic => simp [quoted, Quotes.mark, readValue, hline '"' (by decide) (by decide)]
  | literal => simp [quoted, Quotes.mark, readValue, hline '\'' (by decide) (by decide)]
  | basicLines =>
      simp [quoted, Quotes.mark, readValue, anyString, hlines '"' (by decide) (by decide)]
  | literalLines =>
      simp [quoted, Quotes.mark, readValue, anyString, hlines '\'' (by decide) (by decide)]

/-- A bare key begins with no blank, break, comment sign, bracket, quote or byte order mark. -/
theorem isBareKeyChar_begins {c : Char} (h : isBareKeyChar c = true) :
    isBlank c = false ∧ c ∉ ['\n', '\r', '#', '[', '"', '\'', '\ufeff'] := by
  refine ⟨?_, fun hmem => ?_⟩
  · rw [isBlank, Bool.or_eq_false_iff, beq_eq_false_iff_ne, beq_eq_false_iff_ne]
    constructor <;>
      · rintro rfl
        exact absurd h (by decide)
  · simp only [List.mem_cons, List.not_mem_nil, or_false] at hmem
    rcases hmem with rfl | rfl | rfl | rfl | rfl | rfl | rfl <;> exact absurd h (by decide)

theorem keyName_bare (h : IsBareKey cs) (rest : List Char) :
    keyName (cs ++ ' ' :: rest) = some (String.ofList cs, ' ' :: rest) := by
  have hhalts : Halts isBareKeyChar (' ' :: rest) := Selection.halts_cons.mpr (by decide)
  have htake := h.2.takeWhile_append hhalts
  have hdrop := (h.2.dropWhile_append (' ' :: rest)).trans hhalts.dropWhile_eq
  obtain ⟨c, cs, rfl⟩ := List.exists_cons_of_ne_nil h.1
  obtain ⟨-, hc⟩ := isBareKeyChar_begins (h.2 c List.mem_cons_self)
  unfold keyName
  split
  · next heq => simp_all
  · next heq => simp_all
  · rw [htake, hdrop]

theorem key?_bare (h : IsBareKey cs) (rest : List Char) :
    key? (cs ++ ' ' :: '=' :: rest) = some ([String.ofList cs], '=' :: rest) := by
  have hname := keyName_bare h ('=' :: rest)
  obtain ⟨c, cs, rfl⟩ := List.exists_cons_of_ne_nil h.1
  have hblank := (isBareKeyChar_begins (h.2 c List.mem_cons_self)).1
  have hskip : skipBlanks (c :: cs ++ ' ' :: '=' :: rest) = c :: cs ++ ' ' :: '=' :: rest := by
    rw [skipBlanks, List.cons_append, List.dropWhile_cons_of_neg (by simp [hblank])]
  have hequals : skipBlanks (' ' :: '=' :: rest) = '=' :: rest := by simp [skipBlanks, isBlank]
  rw [key?, keyNames, hskip, hname]
  simp [hequals, keyLimit]

theorem skipTrivia_bare {c : Char} (h : isBareKeyChar c = true) :
    skipTrivia false (c :: cs) = some (c :: cs) := by
  obtain ⟨hblank, hc⟩ := isBareKeyChar_begins h
  simp only [List.mem_cons, not_or] at hc
  rw [skipTrivia] <;> simp_all

theorem skipBlanks_quoted (q : Quotes) :
    skipBlanks (' ' :: (quoted q cs ++ rest)) = quoted q cs ++ rest := by
  cases q <;> simp [skipBlanks, quoted, Quotes.mark, isBlank]

/-- The line is read as a member of the root table. -/
theorem readLines_assignment {key text : String} (q : Quotes) (hkey : IsBareKey key.toList)
    (htext : AllIn isPlainChar text.toList) (fuel : Nat) :
    readLines (fuel + 2) [] [] (assignment key q text) = some [(key, .value (.text text))] := by
  have hline : assignment key q text = key.toList ++ ' ' :: '=' :: ' ' :: (quoted q text.toList ++ ['\n']) := by
    simp [assignment]
  have hkeys := key?_bare hkey (' ' :: (quoted q text.toList ++ ['\n']))
  have hvalue (fuel : Nat) := readValue_quoted q htext fuel depthLimit []
  obtain ⟨c, cs, hcs⟩ := List.exists_cons_of_ne_nil hkey.1
  have hc := hkey.2 c (hcs ▸ List.mem_cons_self)
  have hbracket : c ≠ '[' := fun heq => (isBareKeyChar_begins hc).2 (by simp [heq])
  rw [String.ofList_toList] at hkeys
  simp only [String.ofList_toList] at hvalue
  rw [hcs, List.cons_append] at hline hkeys
  rw [hline, readLines]
  simp only [skipTrivia_bare hc, Option.bind_eq_bind, Option.bind_some]
  split
  · next heq => exact nomatch heq
  · next heq => exact absurd (List.cons.inj heq).1 hbracket
  · next heq => exact absurd (List.cons.inj heq).1 hbracket
  · simp only [hkeys, Option.bind_some, skipBlanks_quoted, hvalue]
    rfl

end Line

/-- **One key and its text.** A document of one line that gives a plain text to a bare key has this member and
    no other. -/
theorem parse?_assignment {key text : String} (q : Quotes) (hkey : IsBareKey key.toList)
    (htext : AllIn isPlainChar text.toList) : parse? (assignment key q text) = some [(key, .text text)] := by
  have hmark : (assignment key q text).head? ≠ some '\ufeff' := by
    obtain ⟨c, cs, hcs⟩ := List.exists_cons_of_ne_nil hkey.1
    have hc := (isBareKeyChar_begins (hkey.2 c (hcs ▸ List.mem_cons_self))).2
    intro heq
    simp only [assignment, hcs, List.cons_append, List.head?_cons, Option.some.injEq] at heq
    exact hc (by simp [heq])
  have hpos : 0 < (assignment key q text).length := List.length_pos_iff.mpr (by simp [assignment])
  have hlength : (assignment key q text).length + 1 = (assignment key q text).length - 1 + 2 := by omega
  rw [parse?, if_neg hmark, hlength, readLines_assignment q hkey htext]
  simp [closeMembers, Node.closed]

end FacetQuery.Toml

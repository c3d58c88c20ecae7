import FacetQuery.Selection.Grammar
import FacetQuery.Selection.Mismatch

/-!
# `FacetQuery.Proofs.Selection.Reading` — what the readers of a line read

A small logic for readers. `Yields` says what holds whenever a reader succeeds, `Reads` and `Refuses` say
on which text it does succeed or fail; the record of failed attempts and the count of passed characters
take no part in any of the three. Each combinator has a rule, and the pieces of a line (runs, symbols,
words, value lists) get one lemma of each sort, so that the statement forms never unfold a piece.

A run is read as a whole, so the text behind it must not go on in the same class (`Halts`). Blanks are the
exception: a symbol takes the blanks behind it, and whatever follows takes its own, so it does not matter
to which of the two they belong (`Reads.symbol`, `ValuesText.dropWhile_isBlank`).
-/

namespace FacetQuery.Selection

/-! ## Where a run ends -/

/-- The text does not go on with a character of the class. -/
def Halts (inClass : Char → Bool) (text : List Char) : Prop := ∀ c ∈ text.head?, inClass c = false

@[simp] theorem halts_nil (inClass : Char → Bool) : Halts inClass [] := by simp [Halts]

@[simp] theorem halts_cons {inClass : Char → Bool} {c : Char} {cs : List Char} :
    Halts inClass (c :: cs) ↔ inClass c = false := by simp [Halts]

theorem Halts.takeWhile_eq_nil {inClass : Char → Bool} {text : List Char} (h : Halts inClass text) :
    text.takeWhile inClass = [] := by
  cases text with
  | nil => rfl
  | cons c cs => simp [halts_cons.mp h]

theorem Halts.dropWhile_eq {inClass : Char → Bool} {text : List Char} (h : Halts inClass text) :
    text.dropWhile inClass = text := by
  cases text with
  | nil => rfl
  | cons c cs => simp [halts_cons.mp h]

theorem halts_dropWhile (inClass : Char → Bool) (text : List Char) :
    Halts inClass (text.dropWhile inClass) := by
  intro c hc
  have hpos := List.head?_dropWhile_not inClass text
  rw [Option.mem_def.mp hc] at hpos
  simpa using hpos

theorem allIn_takeWhile (inClass : Char → Bool) (text : List Char) :
    AllIn inClass (text.takeWhile inClass) := by
  intro c hc
  have hall := List.all_takeWhile (p := inClass) (l := text)
  exact List.all_eq_true.mp hall c hc

theorem AllIn.append {inClass : Char → Bool} {cs ds : List Char} (hc : AllIn inClass cs)
    (hd : AllIn inClass ds) : AllIn inClass (cs ++ ds) := by
  intro c h
  rcases List.mem_append.mp h with h | h
  · exact hc c h
  · exact hd c h

theorem AllIn.dropWhile_append {inClass : Char → Bool} {cs : List Char} (h : AllIn inClass cs)
    (rest : List Char) : (cs ++ rest).dropWhile inClass = rest.dropWhile inClass :=
  List.dropWhile_append_of_pos h

theorem AllIn.takeWhile_append {inClass : Char → Bool} {cs : List Char} (h : AllIn inClass cs)
    {rest : List Char} (hr : Halts inClass rest) : (cs ++ rest).takeWhile inClass = cs := by
  rw [List.takeWhile_append_of_pos h, hr.takeWhile_eq_nil, List.append_nil]

/-! ## Texts that begin with a word -/

theorem isBlank_eq_false_of_isWordChar {c : Char} (h : isWordChar c = true) : isBlank c = false := by
  rw [← Bool.not_eq_true]
  intro hb
  rw [isWordChar_eq_false_of_isSeparator (isSeparator_of_isBlank hb)] at h
  exact Bool.false_ne_true h

theorem isSeparator_eq_false_of_isWordChar {c : Char} (h : isWordChar c = true) :
    isSeparator c = false := by
  rw [← Bool.not_eq_true]
  intro hs
  rw [isWordChar_eq_false_of_isSeparator hs] at h
  exact Bool.false_ne_true h

/-- A text that begins with a word does not go on with a character that is in no word. -/
theorem IsWord.halts {inClass : Char → Bool}
    (hclass : ∀ {c}, isWordChar c = true → inClass c = false) {w : List Char} (h : IsWord w)
    (rest : List Char) : Halts inClass (w ++ rest) := by
  obtain ⟨c, cs, rfl⟩ := List.exists_cons_of_ne_nil h.1
  exact halts_cons.mpr (hclass (h.2 c (by simp)))

theorem IsWord.halts_isBlank {w : List Char} (h : IsWord w) (rest : List Char) :
    Halts isBlank (w ++ rest) := h.halts isBlank_eq_false_of_isWordChar rest

theorem IsWord.halts_isSeparator {w : List Char} (h : IsWord w) (rest : List Char) :
    Halts isSeparator (w ++ rest) := h.halts isSeparator_eq_false_of_isWordChar rest

/-- No word goes on into separators. -/
theorem AllIn.halts_isWordChar {seps rest : List Char} (hs : AllIn isSeparator seps)
    (hr : seps = [] → Halts isWordChar rest) : Halts isWordChar (seps ++ rest) := by
  cases seps with
  | nil => exact hr rfl
  | cons c cs => exact halts_cons.mpr (isWordChar_eq_false_of_isSeparator (hs c (by simp)))

/-- No word goes on into a symbol. -/
theorem SymbolText.halts_isWordChar {k : Char} {text : List Char} (h : SymbolText k text)
    (hk : isWordChar k = false) (rest : List Char) : Halts isWordChar (text ++ rest) := by
  cases h with
  | @around before after hb _ =>
      rw [List.append_assoc]
      exact AllIn.halts_isWordChar (fun c hc => isSeparator_of_isBlank (hb c hc))
        fun _ => halts_cons.mpr hk

/-- Blanks in front of a value list may be taken away. -/
theorem ValuesText.dropWhile_isBlank {text : List Char} {vs : List String} (h : ValuesText text vs) :
    ValuesText (text.dropWhile isBlank) vs := by
  cases h with
  | @list seps word rest vs hs hw hr =>
      have hdrop : (seps ++ word ++ rest).dropWhile isBlank
          = seps.dropWhile isBlank ++ word ++ rest := by
        rw [List.append_assoc, List.append_assoc, List.dropWhile_append]
        -- the separators may be nothing but blanks: then it is the word that ends the run
        split
        · next hnil =>
            rw [List.isEmpty_iff.mp hnil, List.nil_append, (hw.halts_isBlank rest).dropWhile_eq]
        · rfl
      rw [hdrop]
      exact .list (fun c hc => hs c (List.dropWhile_subset _ hc)) hw hr

/-- Separators may follow a value list. -/
theorem MoreText.append_separators {text seps : List Char} {vs : List String} (h : MoreText text vs)
    (hs : AllIn isSeparator seps) : MoreText (text ++ seps) vs := by
  induction h with
  | done hs' => exact .done (hs'.append hs)
  | more hne hs' hw _ ih =>
      rw [List.append_assoc]
      exact .more hne hs' hw ih

/-- What follows a value does not go on with it. -/
theorem MoreText.halts_isWordChar {text : List Char} {vs : List String} (h : MoreText text vs) :
    Halts isWordChar text := by
  cases h with
  | done hs =>
      rw [← List.append_nil text]
      exact hs.halts_isWordChar fun _ => halts_nil isWordChar
  | more hne hs _ _ =>
      rw [List.append_assoc]
      exact hs.halts_isWordChar fun h => absurd h hne

namespace Reader

variable {α β : Type}

/-! ## The logic -/

/-- Whenever the reader succeeds, `P` holds of the text before, of what was read and of the text after. -/
def Yields (x : Reader α) (P : List Char → α → List Char → Prop) : Prop :=
  ∀ c tried a d tried', x c tried = (some (a, d), tried') → P c.rest a d.rest

/-- On this text the reader succeeds, and leaves that rest. -/
def Reads (x : Reader α) (text : List Char) (a : α) (rest : List Char) : Prop :=
  ∀ c tried, c.rest = text → ∃ d tried', x c tried = (some (a, d), tried') ∧ d.rest = rest

/-- On this text the reader fails. -/
def Refuses (x : Reader α) (text : List Char) : Prop :=
  ∀ c tried, c.rest = text → ∃ tried', x c tried = (none, tried')

theorem bind_apply (x : Reader α) (f : α → Reader β) (c : Cursor) (tried : Attempts) :
    (x >>= f) c tried = match x c tried with
      | (some (a, d), tried') => f a d tried'
      | (none, tried') => (none, tried') := rfl

theorem Yields.pure (a : α) : Yields (Pure.pure a : Reader α) fun t b r => b = a ∧ r = t := by
  intro c tried b d tried' h
  injection h with h _
  injection h with h
  injection h with hb hd
  exact ⟨hb.symm, by rw [← hd]⟩

theorem Yields.bind {x : Reader α} {f : α → Reader β} {P : List Char → α → List Char → Prop}
    {Q : α → List Char → β → List Char → Prop} (hx : x.Yields P) (hf : ∀ a, (f a).Yields (Q a)) :
    (x >>= f).Yields fun t b r => ∃ a mid, P t a mid ∧ Q a mid b r := by
  intro c tried b e tried'' h
  rw [bind_apply] at h
  split at h
  · next a d tried' hxd => exact ⟨a, d.rest, hx _ _ _ _ _ hxd, hf a _ _ _ _ _ h⟩
  · injection h with h _
    exact nomatch h

theorem Yields.orElse {x y : Reader α} {P : List Char → α → List Char → Prop} (hx : x.Yields P)
    (hy : y.Yields P) : (x.orElse y).Yields P := by
  intro c tried a d tried' h
  unfold Reader.orElse at h
  split at h
  · next hxd =>
      injection h with h _
      injection h with h
      subst h
      exact hx _ _ _ _ _ hxd
  · exact hy _ _ _ _ _ h

theorem Yields.tracked {x : Reader α} {P : List Char → α → List Char → Prop} (r : Rule)
    (hx : x.Yields P) : (Reader.tracked r x).Yields P := by
  intro c tried a d tried' h
  unfold Reader.tracked at h
  split at h
  · next hxd =>
      injection h with h _
      injection h with h
      subst h
      exact hx _ _ _ _ _ hxd
  · injection h with h _
    exact nomatch h

theorem Yields.mono {x : Reader α} {P Q : List Char → α → List Char → Prop} (hx : x.Yields P)
    (h : ∀ {t a r}, P t a r → Q t a r) : x.Yields Q :=
  fun c tried a d tried' hxd => h (hx c tried a d tried' hxd)

theorem Reads.pure (text : List Char) (a : α) : Reads (Pure.pure a) text a text :=
  fun c tried hc => ⟨c, tried, rfl, hc⟩

theorem Reads.bind {x : Reader α} {f : α → Reader β} {text mid rest : List Char} {a : α} {b : β}
    (hx : x.Reads text a mid) (hf : (f a).Reads mid b rest) : (x >>= f).Reads text b rest := by
  intro c tried hc
  obtain ⟨d, tried', hxd, hd⟩ := hx c tried hc
  rw [bind_apply, hxd]
  exact hf d tried' hd

theorem Reads.tracked {x : Reader α} {text rest : List Char} {a : α} (r : Rule)
    (hx : x.Reads text a rest) : (Reader.tracked r x).Reads text a rest := by
  intro c tried hc
  obtain ⟨d, tried', hxd, hd⟩ := hx c tried hc
  exact ⟨d, tried', by simp only [Reader.tracked, hxd], hd⟩

theorem Reads.orElse_left {x : Reader α} {text rest : List Char} {a : α} (hx : x.Reads text a rest)
    (y : Reader α) : (x.orElse y).Reads text a rest := by
  intro c tried hc
  obtain ⟨d, tried', hxd, hd⟩ := hx c tried hc
  exact ⟨d, tried', by simp only [Reader.orElse, hxd], hd⟩

theorem Reads.orElse_right {x y : Reader α} {text rest : List Char} {a : α} (hx : x.Refuses text)
    (hy : y.Reads text a rest) : (x.orElse y).Reads text a rest := by
  intro c tried hc
  obtain ⟨tried', hxc⟩ := hx c tried hc
  obtain ⟨d, tried'', hyd, hd⟩ := hy c tried' hc
  exact ⟨d, tried'', by simp only [Reader.orElse, hxc, hyd], hd⟩

theorem Refuses.bind {x : Reader α} {text : List Char} (hx : x.Refuses text) (f : α → Reader β) :
    (x >>= f).Refuses text := by
  intro c tried hc
  obtain ⟨tried', hxc⟩ := hx c tried hc
  exact ⟨tried', by rw [bind_apply, hxc]⟩

theorem Reads.bind_refuses {x : Reader α} {f : α → Reader β} {text mid : List Char} {a : α}
    (hx : x.Reads text a mid) (hf : (f a).Refuses mid) : (x >>= f).Refuses text := by
  intro c tried hc
  obtain ⟨d, tried', hxd, hd⟩ := hx c tried hc
  rw [bind_apply, hxd]
  exact hf d tried' hd

theorem Refuses.tracked {x : Reader α} {text : List Char} (r : Rule) (hx : x.Refuses text) :
    (Reader.tracked r x).Refuses text := by
  intro c tried hc
  obtain ⟨tried', hxc⟩ := hx c tried hc
  exact ⟨tried'.fail r c.passed (tried.countAt c.passed), by simp only [Reader.tracked, hxc]⟩

/-! ## Runs and keywords -/

theorem skip_yields (inClass : Char → Bool) :
    (skip inClass).Yields fun t _ r => ∃ run, AllIn inClass run ∧ t = run ++ r := by
  intro c tried u d tried' h
  injection h with h _
  injection h with h
  injection h with _ hd
  subst hd
  exact ⟨_, allIn_takeWhile inClass c.rest, List.takeWhile_append_dropWhile.symm⟩

theorem Reads.skip (inClass : Char → Bool) (text : List Char) :
    (Reader.skip inClass).Reads text () (text.dropWhile inClass) := by
  intro c tried hc
  exact ⟨_, _, rfl, by rw [← hc]; rfl⟩

theorem keyword_yields (ks : List Char) : (keyword ks).Yields fun t _ r => t = ks ++ r := by
  induction ks with
  | nil => exact (Yields.pure ()).mono fun h => h.2.symm
  | cons k ks ih =>
      intro c tried u d tried' h
      unfold keyword at h
      split at h
      · next y ys hrest =>
          split at h
          · next hy =>
              have hys : ys = ks ++ d.rest := ih _ _ _ _ _ h
              rw [hrest, hy, hys, List.cons_append]
          · injection h with h _
            exact nomatch h
      · injection h with h _
        exact nomatch h

theorem Reads.keyword (ks rest : List Char) : (Reader.keyword ks).Reads (ks ++ rest) () rest := by
  induction ks with
  | nil => exact Reads.pure rest ()
  | cons k ks ih =>
      intro c tried hc
      unfold Reader.keyword
      rw [hc, List.cons_append]
      simp only [if_true]
      exact ih ⟨c.passed + 1, ks ++ rest⟩ tried rfl

/-- A keyword is refused by a text that does not begin with it. -/
theorem Refuses.keyword {ks text : List Char} (h : ¬ ks <+: text) : (Reader.keyword ks).Refuses text := by
  induction ks generalizing text with
  | nil => exact absurd (List.nil_prefix) h
  | cons k ks ih =>
      intro c tried hc
      unfold Reader.keyword
      rw [hc]
      -- the text ends, or has another character here, or parts from the keyword further on
      cases text with
      | nil => exact ⟨tried, rfl⟩
      | cons y ys =>
          simp only
          split
          · next hy =>
              subst hy
              exact ih (fun hp => h (List.cons_prefix_cons.mpr ⟨rfl, hp⟩)) ⟨c.passed + 1, ys⟩ tried rfl
          · exact ⟨tried, rfl⟩

/-! ## Symbols -/

theorem symbol_yields (k : Char) : (symbol k).Yields fun t _ r => ∃ s, SymbolText k s ∧ t = s ++ r := by
  refine ((skip_yields isBlank).bind fun _ =>
    (keyword_yields [k]).bind fun _ => skip_yields isBlank).mono ?_
  rintro t u r ⟨_, mid, ⟨before, hb, rfl⟩, _, mid', rfl, after, ha, rfl⟩
  exact ⟨before ++ k :: after, .around hb ha, by simp⟩

/-- A symbol takes the blanks behind it, whoever put them there. -/
theorem Reads.symbol {k : Char} (hk : isBlank k = false) {s rest : List Char} (hs : SymbolText k s) :
    (Reader.symbol k).Reads (s ++ rest) () (rest.dropWhile isBlank) := by
  cases hs with
  | @around before after hb ha =>
      have hfront : (before ++ k :: after ++ rest).dropWhile isBlank = [k] ++ (after ++ rest) := by
        rw [List.append_assoc, hb.dropWhile_append]
        simp [hk]
      refine (Reads.skip isBlank _).bind ?_
      -- the blanks behind the symbol and those of the rest are one run
      rw [hfront, ← ha.dropWhile_append rest]
      exact (Reads.keyword [k] _).bind (Reads.skip isBlank _)

/-- Blanks in front of a symbol may be taken away before. -/
theorem Reads.symbol_dropWhile {k : Char} (hk : isBlank k = false) {s rest : List Char}
    (hs : SymbolText k s) :
    (Reader.symbol k).Reads ((s ++ rest).dropWhile isBlank) () (rest.dropWhile isBlank) := by
  cases hs with
  | @around before after hb ha =>
      have hfront : (before ++ k :: after ++ rest).dropWhile isBlank = k :: after ++ rest := by
        rw [List.append_assoc, hb.dropWhile_append]
        simp [hk]
      rw [hfront]
      exact Reads.symbol hk (@SymbolText.around k [] after (fun _ h => nomatch h) ha)

/-- A symbol is refused where another character stands behind the blanks. -/
theorem Refuses.symbol {j : Char} {text : List Char} (h : text.dropWhile isBlank ≠ [])
    (hj : (text.dropWhile isBlank).head? ≠ some j) : (Reader.symbol j).Refuses text := by
  refine (Reads.skip isBlank text).bind_refuses (Refuses.bind (Refuses.keyword ?_) _)
  obtain ⟨c, cs, hc⟩ := List.exists_cons_of_ne_nil h
  rw [hc] at hj ⊢
  intro hp
  exact hj (by rw [(List.cons_prefix_cons.mp hp).1]; rfl)

/-! ## Words -/

theorem word_yields (r : Rule) :
    (word r).Yields fun t a rest => ∃ w, IsWord w ∧ a = String.ofList w ∧ t = w ++ rest := by
  intro c tried a d tried' h
  unfold word at h
  split at h
  · injection h with h _
    exact nomatch h
  · next w hne =>
      injection h with h _
      injection h with h
      injection h with ha hd
      subst ha hd
      exact ⟨_, ⟨hne, allIn_takeWhile isWordChar c.rest⟩, rfl,
        List.takeWhile_append_dropWhile.symm⟩

theorem Reads.word (r : Rule) {w rest : List Char} (hw : IsWord w) (hr : Halts isWordChar rest) :
    (Reader.word r).Reads (w ++ rest) (String.ofList w) rest := by
  intro c tried hc
  have htake : c.rest.takeWhile isWordChar = w := by rw [hc, hw.2.takeWhile_append hr]
  have hdrop : c.rest.dropWhile isWordChar = rest := by
    rw [hc, hw.2.dropWhile_append, hr.dropWhile_eq]
  refine ⟨c.passWhile isWordChar, tried, ?_, hdrop⟩
  unfold Reader.word
  rw [htake]
  split
  · exact absurd rfl hw.1
  · rfl

/-! ## Value lists -/

/-- Further values stand where they are read, and reading ends behind the last of them. -/
theorem moreValues_yields (c : Cursor) (tried : Attempts) :
    ∃ t, MoreText t (moreValues c tried).1.1 ∧ c.rest = t ++ (moreValues c tried).1.2.rest := by
  have hnone : AllIn isSeparator [] := fun _ h => nomatch h
  -- no separators stand here, or no word behind them, or one value more
  fun_induction moreValues c tried with
  | case1 c hseps => exact ⟨[], .done hnone, rfl⟩
  | case2 c hseps hword => exact ⟨[], .done hnone, rfl⟩
  | case3 c hseps hword _ vs d tried' heq ih =>
      rw [heq] at ih
      obtain ⟨t, ht, hrest⟩ := ih
      refine ⟨_, .more hseps (allIn_takeWhile isSeparator c.rest)
        ⟨hword, allIn_takeWhile isWordChar _⟩ ht, ?_⟩
      have hmid : (c.passWhile isSeparator).rest
          = (c.passWhile isSeparator).rest.takeWhile isWordChar ++ (t ++ d.rest) := by
        rw [← hrest]
        exact List.takeWhile_append_dropWhile.symm
      calc c.rest = c.rest.takeWhile isSeparator ++ (c.passWhile isSeparator).rest :=
            List.takeWhile_append_dropWhile.symm
        _ = _ := by
            conv => lhs; rw [hmid]
            simp only [List.append_assoc]

/-- All further values are read, and what is left are the separators behind them. -/
theorem moreValues_of_moreText {text : List Char} {vs : List String} (h : MoreText text vs) :
    ∃ seps, AllIn isSeparator seps ∧ ∀ c tried, c.rest = text →
      ∃ d tried', moreValues c tried = ((vs, d), tried') ∧ d.rest = seps := by
  induction h with
  | @done seps hs =>
      refine ⟨seps, hs, fun c tried hc => ?_⟩
      -- separators without a word behind them are given back
      unfold moreValues
      split
      · exact ⟨c, tried, rfl, hc⟩
      · have hend : (c.passWhile isSeparator).rest = [] := by
          show c.rest.dropWhile isSeparator = []
          rw [hc, ← List.append_nil seps, hs.dropWhile_append, List.dropWhile_nil]
        rw [dif_pos (by rw [hend, List.takeWhile_nil])]
        exact ⟨c, _, rfl, hc⟩
  | @more seps w rest vs hne hs hw hr ih =>
      obtain ⟨left, hleft, hread⟩ := ih
      refine ⟨left, hleft, fun c tried hc => ?_⟩
      have hseps : c.rest.takeWhile isSeparator = seps := by
        rw [hc, List.append_assoc, hs.takeWhile_append (hw.halts_isSeparator rest)]
      have hmid : (c.passWhile isSeparator).rest = w ++ rest := by
        show c.rest.dropWhile isSeparator = w ++ rest
        rw [hc, List.append_assoc, hs.dropWhile_append, (hw.halts_isSeparator rest).dropWhile_eq]
      have hword : (c.passWhile isSeparator).rest.takeWhile isWordChar = w := by
        rw [hmid, hw.2.takeWhile_append hr.halts_isWordChar]
      have hend : ((c.passWhile isSeparator).passWhile isWordChar).rest = rest := by
        show (c.passWhile isSeparator).rest.dropWhile isWordChar = rest
        rw [hmid, hw.2.dropWhile_append, hr.halts_isWordChar.dropWhile_eq]
      obtain ⟨d, tried', heq, hd⟩ := hread _ tried hend
      refine ⟨d, tried', ?_, hd⟩
      unfold moreValues
      rw [if_neg (by rw [hseps]; exact hne), dif_neg (by rw [hword]; exact hw.1), heq]
      simp only [hword]

/-- The reader of the further values, as it stands in a value list. -/
theorem Reads.more {text : List Char} {vs : List String} (h : MoreText text vs) :
    ∃ seps, AllIn isSeparator seps ∧
      Reads (fun c tried => let (r, tried') := moreValues c tried; (some r, tried')) text vs seps := by
  obtain ⟨seps, hs, hread⟩ := moreValues_of_moreText h
  refine ⟨seps, hs, fun c tried hc => ?_⟩
  obtain ⟨d, tried', heq, hd⟩ := hread c tried hc
  exact ⟨d, tried', by simp only [heq], hd⟩

theorem values_yields : values.Yields fun t vs rest => ∃ v, ValuesText v vs ∧ t = v ++ rest := by
  -- the further values cannot be refused, there may be none
  have hmore : Yields (fun c tried => let (r, tried') := moreValues c tried; (some r, tried'))
      fun t vs rest => ∃ m, MoreText m vs ∧ t = m ++ rest := by
    intro c tried vs d tried' h
    have hsound := moreValues_yields c tried
    injection h with h _
    injection h with h
    rw [h] at hsound
    exact hsound
  refine ((skip_yields isSeparator).bind fun _ => (word_yields .value).bind fun w =>
    hmore.bind fun vs => (skip_yields isSeparator).bind fun _ => .pure (w :: vs)).mono ?_
  rintro t ws r ⟨_, _, ⟨seps, hs, rfl⟩, _, _, ⟨w, hw, rfl, rfl⟩, vs, _, ⟨m, hm, rfl⟩, _, _,
    ⟨after, ha, rfl⟩, rfl, rfl⟩
  exact ⟨_, .list hs hw (hm.append_separators ha), by simp⟩

/-- A value list is read to its end. -/
theorem Reads.values {text : List Char} {vs : List String} (h : ValuesText text vs) :
    Reader.values.Reads text vs [] := by
  cases h with
  | @list seps w rest vs hs hw hr =>
      obtain ⟨left, hleft, hmore⟩ := Reads.more hr
      have hfront : (seps ++ w ++ rest).dropWhile isSeparator = w ++ rest := by
        rw [List.append_assoc, hs.dropWhile_append, (hw.halts_isSeparator rest).dropWhile_eq]
      have hback : left.dropWhile isSeparator = [] := by
        rw [← List.append_nil left, hleft.dropWhile_append, List.dropWhile_nil]
      refine (Reads.skip isSeparator _).bind ?_
      rw [hfront]
      refine (Reads.word .value hw hr.halts_isWordChar).bind (hmore.bind ?_)
      refine (Reads.skip isSeparator left).bind ?_
      rw [hback]
      exact Reads.pure [] (String.ofList w :: vs)

end Reader

end FacetQuery.Selection

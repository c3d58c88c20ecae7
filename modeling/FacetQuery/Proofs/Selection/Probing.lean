import FacetQuery.Proofs.Selection.Grammar

/-!
# `FacetQuery.Proofs.Selection.Probing` — where the readers of a line fail

A reader keeps the furthest place at which a piece that is named in reports was tried and failed.
Alternatives are tried from the same start, and what an alternative records stays when another one succeeds,
so the place says little of the alternative that is taken in the end. It does say this: some alternative
came so far, and what it had passed could have been continued.

`Probes` says so of a reader and of the language that the reader is for. A reader that comes to an end has
passed a text of the language; and whether it does or not, a place that it records has in front of it what a
text of the language begins with (`Extends`). Each combinator has a rule, as for what is read (`Yields`),
and alternatives need not be compared with each other, since they are readers for one language.

What continues a text must not hold a break, as the line would end there, so `Extends` asks for that too.

Main statement: `Reader.probes_statement`.
-/

namespace FacetQuery.Selection

theorem Unbroken.append {u v : List Char} (hu : Unbroken u) (hv : Unbroken v) : Unbroken (u ++ v) := by
  intro c hc
  exact (List.mem_append.mp hc).elim (hu c) (hv c)

theorem allIn_nil (inClass : Char → Bool) : AllIn inClass [] := fun _ h => nomatch h

namespace Reader

variable {α β : Type}

/-! ## Readers that probe a language -/

/-- The place is in the text at the cursor, and what stands before it can be continued, without a break, to
    a text of the language. -/
def Extends (S : List Char → α → Prop) (c : Cursor) (place : Nat) : Prop :=
  ∃ u r more a, c.rest = u ++ r ∧ place = c.passed + u.length ∧ Unbroken more ∧ S (u ++ more) a

/-- What the reader passes is a text of the language, and every place that it records as a failure is one to
    which such a text could have led. -/
structure Probes (x : Reader α) (S : List Char → α → Prop) : Prop where
  passes : ∀ c tried a d tried', x c tried = (some (a, d), tried') →
    ∃ w, S w a ∧ c.rest = w ++ d.rest ∧ d.passed = c.passed + w.length
  records : ∀ c tried, (x c tried).2.place = tried.place ∨ Extends S c (x c tried).2.place
  /-- The language has a text without a break. -/
  inhabited : ∃ w a, Unbroken w ∧ S w a

section Rules

variable {S : List Char → α → Prop}

/-- Where nothing is passed yet a text of the language may follow. -/
theorem Probes.extends_start {x : Reader α} (h : Probes x S) (c : Cursor) : Extends S c c.passed := by
  obtain ⟨w, a, hw, hS⟩ := h.inhabited
  exact ⟨[], c.rest, w, a, rfl, rfl, hw, hS⟩

theorem Extends.mono {T : List Char → α → Prop} {c : Cursor} {place : Nat} (h : Extends S c place)
    (hST : ∀ {w a}, S w a → T w a) : Extends T c place := by
  obtain ⟨u, r, more, a, hrest, hplace, hmore, hS⟩ := h
  exact ⟨u, r, more, a, hrest, hplace, hmore, hST hS⟩

/-- A text that leads to a place leads there also from before what is already passed. -/
theorem Extends.behind {T : List Char → β → Prop} {c d : Cursor} {w : List Char} {place : Nat}
    (h : Extends S d place) (hrest : c.rest = w ++ d.rest) (hpassed : d.passed = c.passed + w.length)
    (hST : ∀ {v a}, S v a → ∃ b, T (w ++ v) b) : Extends T c place := by
  obtain ⟨u, r, more, a, hrest', hplace, hmore, hS⟩ := h
  obtain ⟨b, hT⟩ := hST hS
  refine ⟨w ++ u, r, more, b, ?_, ?_, hmore, ?_⟩
  · rw [hrest, hrest', List.append_assoc]
  · rw [hplace, hpassed, List.length_append, Nat.add_assoc]
  · rwa [List.append_assoc]

theorem Probes.mono {x : Reader α} {T : List Char → α → Prop} (h : Probes x S)
    (hST : ∀ {w a}, S w a → T w a) : Probes x T where
  passes c tried a d tried' hx := by
    obtain ⟨w, hw, hrest⟩ := h.passes c tried a d tried' hx
    exact ⟨w, hST hw, hrest⟩
  records c tried := (h.records c tried).imp_right fun h => h.mono hST
  inhabited := by
    obtain ⟨w, a, hw, hS⟩ := h.inhabited
    exact ⟨w, a, hw, hST hS⟩

theorem Probes.pure (a : α) : Probes (Pure.pure a : Reader α) fun w b => w = [] ∧ b = a where
  passes c tried b d tried' h := by
    injection h with h _
    injection h with h
    injection h with hb hd
    subst hb hd
    exact ⟨[], ⟨rfl, rfl⟩, rfl, rfl⟩
  records c tried := .inl rfl
  inhabited := ⟨[], a, unbroken_nil, rfl, rfl⟩

theorem Probes.bind {x : Reader α} {f : α → Reader β} {T : α → List Char → β → Prop} (hx : Probes x S)
    (hf : ∀ a, Probes (f a) (T a)) :
    Probes (x >>= f) fun w b => ∃ u a v, S u a ∧ T a v b ∧ w = u ++ v where
  passes c tried b e tried'' h := by
    rw [bind_apply] at h
    split at h
    · next a d tried' hxd =>
        obtain ⟨u, hu, hrest, hpassed⟩ := hx.passes c tried a d tried' hxd
        obtain ⟨v, hv, hrest', hpassed'⟩ := (hf a).passes d tried' b e tried'' h
        refine ⟨u ++ v, ⟨u, a, v, hu, hv, rfl⟩, ?_, ?_⟩
        · rw [hrest, hrest', List.append_assoc]
        · rw [hpassed', hpassed, List.length_append, Nat.add_assoc]
    · injection h with h _
      exact nomatch h
  records c tried := by
    -- a failure in the first part can be continued by some text of the second
    have hfirst : ∀ {place}, Extends S c place →
        Extends (fun w b => ∃ u a v, S u a ∧ T a v b ∧ w = u ++ v) c place := by
      rintro place ⟨u, r, more, a, hrest, hplace, hmore, hS⟩
      obtain ⟨v, b, hv, hT⟩ := (hf a).inhabited
      exact ⟨u, r, more ++ v, b, hrest, hplace, hmore.append hv, u ++ more, a, v, hS, hT,
        (List.append_assoc ..).symm⟩
    have hrecords := hx.records c tried
    rw [bind_apply]
    cases hxd : x c tried with
    | mk res tried' =>
        rw [hxd] at hrecords
        cases res with
        | none => exact hrecords.imp_right hfirst
        | some read =>
            obtain ⟨a, d⟩ := read
            obtain ⟨w, hw, hrest, hpassed⟩ := hx.passes c tried a d tried' hxd
            rcases (hf a).records d tried' with hkept | hextends
            · simp only [hkept]
              exact hrecords.imp_right hfirst
            · exact .inr (hextends.behind hrest hpassed fun hT => ⟨_, w, a, _, hw, hT, rfl⟩)
  inhabited := by
    obtain ⟨u, a, hu, hS⟩ := hx.inhabited
    obtain ⟨v, b, hv, hT⟩ := (hf a).inhabited
    exact ⟨u ++ v, b, hu.append hv, u, a, v, hS, hT, rfl⟩

theorem Probes.orElse {x y : Reader α} (hx : Probes x S) (hy : Probes y S) :
    Probes (x.orElse y) S where
  passes c tried a d tried' h := by
    unfold Reader.orElse at h
    split at h
    · next r tried'' hxd =>
        injection h with hr
        injection hr with hr
        subst hr
        exact hx.passes c tried a d tried'' hxd
    · next tried'' _ => exact hy.passes c tried'' a d tried' h
  records c tried := by
    have hrecords := hx.records c tried
    unfold Reader.orElse
    cases hxd : x c tried with
    | mk res tried' =>
        rw [hxd] at hrecords
        cases res with
        | some read => exact hrecords
        | none =>
            rcases hy.records c tried' with hkept | hextends
            · simp only [hkept]
              exact hrecords
            · exact .inr hextends
  inhabited := hx.inhabited

theorem Probes.tracked {x : Reader α} (r : Rule) (hx : Probes x S) : Probes (Reader.tracked r x) S where
  passes c tried a d tried' h := by
    unfold Reader.tracked at h
    split at h
    · next read tried'' hxd =>
        injection h with hr
        injection hr with hr
        subst hr
        exact hx.passes c tried a d tried'' hxd
    · injection h with h _
      exact nomatch h
  records c tried := by
    have hrecords := hx.records c tried
    unfold Reader.tracked
    cases hxd : x c tried with
    | mk res tried' =>
        rw [hxd] at hrecords
        cases res with
        | some read => exact hrecords
        | none =>
            rcases tried'.place_fail_eq r c.passed (tried.countAt c.passed) with hplace | hplace
            · simp only [hplace]
              exact hrecords
            · simp only [hplace]
              exact .inr (hx.extends_start c)
  inhabited := hx.inhabited

end Rules

/-! ## The pieces of a line -/

theorem probes_skip (inClass : Char → Bool) :
    Probes (skip inClass) fun w _ => AllIn inClass w where
  passes c tried u d tried' h := by
    injection h with h _
    injection h with h
    injection h with _ hd
    subst hd
    exact ⟨_, allIn_takeWhile inClass c.rest, List.takeWhile_append_dropWhile.symm, rfl⟩
  records c tried := .inl rfl
  inhabited := ⟨[], (), unbroken_nil, allIn_nil inClass⟩

theorem probes_keyword {ks : List Char} (hks : Unbroken ks) : Probes (keyword ks) fun w _ => w = ks := by
  induction ks with
  | nil => exact (Probes.pure ()).mono fun h => h.1
  | cons k ks ih =>
      have hrest := ih fun c hc => hks c (List.mem_cons_of_mem k hc)
      refine ⟨fun c tried u d tried' h => ?_, fun c tried => ?_, ⟨_, (), hks, rfl⟩⟩
      · unfold keyword at h
        split at h
        · next x xs hx =>
            split at h
            · next hxk =>
                obtain ⟨w, rfl, htail, hpassed⟩ := hrest.passes _ _ _ _ _ h
                refine ⟨k :: w, rfl, ?_, ?_⟩
                · rw [hx, hxk, List.cons_append, ← htail]
                · simp only [hpassed, List.length_cons]
                  omega
            · injection h with h _
              exact nomatch h
        · injection h with h _
          exact nomatch h
      · unfold keyword
        split
        · next x xs hx =>
            split
            · next hxk =>
                refine (hrest.records ⟨c.passed + 1, xs⟩ tried).imp_right fun hextends => ?_
                exact hextends.behind (w := [k]) (by rw [hx, hxk]; rfl) rfl fun hS => ⟨(), by rw [hS]; rfl⟩
            · exact .inl rfl
        · exact .inl rfl

theorem probes_symbol {k : Char} (hk : Unbroken [k]) : Probes (symbol k) fun w _ => SymbolText k w := by
  refine ((probes_skip isBlank).bind fun _ => (probes_keyword hk).bind fun _ => probes_skip isBlank).mono ?_
  rintro w u ⟨before, _, _, hb, ⟨_, _, after, rfl, ha, rfl⟩, rfl⟩
  exact .around hb ha

/-- A word of one character, which can stand in for any name or value. -/
theorem isWord_letter : IsWord ['a'] := ⟨List.cons_ne_nil _ _, by simp [AllIn]; decide⟩

theorem unbroken_letter : Unbroken ['a'] := by simp [Unbroken]

theorem probes_word (r : Rule) : Probes (word r) fun w a => IsWord w ∧ a = String.ofList w where
  passes c tried a d tried' h := by
    unfold word at h
    split at h
    · injection h with h _
      exact nomatch h
    · next w hne =>
        injection h with h _
        injection h with h
        injection h with ha hd
        subst ha hd
        exact ⟨_, ⟨⟨hne, allIn_takeWhile isWordChar c.rest⟩, rfl⟩, List.takeWhile_append_dropWhile.symm, rfl⟩
  records c tried := by
    unfold word
    split
    · refine (tried.place_fail_eq r c.passed (tried.countAt c.passed)).imp_right fun hplace => ?_
      exact ⟨[], c.rest, ['a'], _, rfl, hplace, unbroken_letter, isWord_letter, rfl⟩
    · exact .inl rfl
  inhabited := ⟨['a'], _, unbroken_letter, isWord_letter, rfl⟩

/-- Further values are what is passed, and a failure among them is at a place where a value could have
    followed. -/
theorem moreValues_probes (c : Cursor) (tried : Attempts) :
    (∃ w, MoreText w (moreValues c tried).1.1 ∧ c.rest = w ++ (moreValues c tried).1.2.rest ∧
      (moreValues c tried).1.2.passed = c.passed + w.length) ∧
    ((moreValues c tried).2.place = tried.place ∨ Extends MoreText c (moreValues c tried).2.place) := by
  -- no separators stand here, or no word behind them, or one value more
  fun_induction moreValues c tried with
  | case1 c hseps => exact ⟨⟨[], .done (allIn_nil _), rfl, rfl⟩, .inl rfl⟩
  | case2 c hseps hword =>
      refine ⟨⟨[], .done (allIn_nil _), rfl, rfl⟩, ?_⟩
      refine ((probes_word .value).records (c.passWhile isSeparator) tried).imp_right fun hextends => ?_
      refine hextends.behind List.takeWhile_append_dropWhile.symm rfl fun hread => ?_
      have hlist := MoreText.more hseps (allIn_takeWhile isSeparator c.rest) hread.1 (.done (allIn_nil _))
      rw [List.append_nil] at hlist
      exact ⟨_, hlist⟩
  | case3 c hseps hword _ vs d tried' heq ih =>
      rw [heq] at ih
      obtain ⟨⟨t, ht, hrest, hpassed⟩, hrecords⟩ := ih
      have hmore : ∀ {t vs}, MoreText t vs → MoreText (c.rest.takeWhile isSeparator ++
          (c.passWhile isSeparator).rest.takeWhile isWordChar ++ t) (_ :: vs) := fun ht =>
        .more hseps (allIn_takeWhile isSeparator c.rest) ⟨hword, allIn_takeWhile isWordChar _⟩ ht
      -- what stands here is the separators, the word, and what stands behind them
      have hfront : c.rest = c.rest.takeWhile isSeparator ++
          (c.passWhile isSeparator).rest.takeWhile isWordChar ++
            ((c.passWhile isSeparator).passWhile isWordChar).rest := by
        rw [List.append_assoc]
        conv => lhs; rw [← List.takeWhile_append_dropWhile (p := isSeparator) (l := c.rest)]
        exact congrArg _ List.takeWhile_append_dropWhile.symm
      have hcount : ((c.passWhile isSeparator).passWhile isWordChar).passed = c.passed +
          (c.rest.takeWhile isSeparator ++
            (c.passWhile isSeparator).rest.takeWhile isWordChar).length := by
        rw [List.length_append, ← Nat.add_assoc]
        rfl
      refine ⟨⟨_, hmore ht, ?_, ?_⟩, hrecords.imp_right fun hextends =>
        hextends.behind hfront hcount fun ht => ⟨_, hmore ht⟩⟩
      · rw [List.append_assoc, ← hrest]
        exact hfront
      · rw [List.length_append, ← Nat.add_assoc, ← hcount]
        exact hpassed

theorem probes_values : Probes values ValuesText := by
  have hmore : Probes (fun c tried => (some (moreValues c tried).1, (moreValues c tried).2)) MoreText := by
    refine ⟨fun c tried vs d tried' h => ?_, fun c tried => (moreValues_probes c tried).2,
      [], [], unbroken_nil, .done (allIn_nil _)⟩
    obtain ⟨w, hw⟩ := (moreValues_probes c tried).1
    injection h with h _
    injection h with h
    rw [h] at hw
    exact ⟨w, hw⟩
  refine ((probes_skip isSeparator).bind fun _ => (probes_word .value).bind fun w =>
    hmore.bind fun vs => (probes_skip isSeparator).bind fun _ => .pure (w :: vs)).mono ?_
  rintro _ ws ⟨seps, _, _, hs, ⟨w, _, _, ⟨hw, rfl⟩, ⟨m, vs, _, hm, ⟨after, _, _, ha, ⟨rfl, rfl⟩, rfl⟩,
    rfl⟩, rfl⟩, rfl⟩
  have hlist := ValuesText.list hs hw (hm.append_separators ha)
  simpa using hlist

/-! ## The forms -/

theorem unbroken_variableChars : Unbroken variableChars := by
  simp [Unbroken, variableChars]

theorem probes_variableWord :
    Probes variableWord fun w _ => ∃ blanks, AllIn isBlank blanks ∧ w = variableChars ++ blanks := by
  refine ((probes_keyword unbroken_variableChars).bind fun _ => probes_skip isBlank).mono ?_
  rintro _ u ⟨_, _, blanks, rfl, hb, rfl⟩
  exact ⟨blanks, hb, rfl⟩

theorem probes_opening : Probes (symbol '[') fun w _ => SymbolText '[' w :=
  probes_symbol (by simp [Unbroken])

theorem probes_closing : Probes (symbol ']') fun w _ => SymbolText ']' w :=
  probes_symbol (by simp [Unbroken])

theorem probes_equals : Probes (symbol '=') fun w _ => SymbolText '=' w :=
  probes_symbol (by simp [Unbroken])

theorem probes_basic : Probes basic StatementText := by
  refine (((probes_word .name).bind fun n => probes_equals.bind fun _ =>
    probes_values.bind fun vs => .pure (Statement.basic n vs)).tracked .facet).mono ?_
  rintro _ s ⟨n, _, _, ⟨hn, rfl⟩, ⟨eq, _, _, heq, ⟨v, vs, _, hv, ⟨rfl, rfl⟩, rfl⟩, rfl⟩, rfl⟩
  simpa using StatementText.basic hn heq hv

theorem probes_variableFrequency : Probes variableFrequency StatementText := by
  refine ((probes_variableWord.bind fun _ => probes_opening.bind fun _ =>
    (probes_word .frequency).bind fun f => probes_closing.bind fun _ => probes_equals.bind fun _ =>
    probes_values.bind fun vs => .pure (Statement.byFrequency f vs)).tracked .variableFrequency).mono ?_
  rintro _ s ⟨_, _, _, ⟨blanks, hb, rfl⟩, ⟨o, _, _, ho, ⟨f, _, _, ⟨hf, rfl⟩, ⟨c, _, _, hc, ⟨eq, _, _, heq,
    ⟨v, vs, _, hv, ⟨rfl, rfl⟩, rfl⟩, rfl⟩, rfl⟩, rfl⟩, rfl⟩, rfl⟩
  simpa using StatementText.byFrequency (ho.prepend_blanks hb) hf hc heq hv

theorem probes_scope : Probes scope fun w nv => ∃ n is v, IsWord n ∧ SymbolText '=' is ∧ IsWord v ∧
    nv = (String.ofList n, String.ofList v) ∧ w = n ++ is ++ v := by
  refine (((probes_word .name).bind fun n => probes_equals.bind fun _ =>
    (probes_word .value).bind fun v => .pure (n, v)).tracked .scope).mono ?_
  rintro _ nv ⟨n, _, _, ⟨hn, rfl⟩, ⟨is, _, _, his, ⟨v, _, _, ⟨hv, rfl⟩, ⟨rfl, rfl⟩, rfl⟩, rfl⟩, rfl⟩
  exact ⟨n, is, v, hn, his, hv, rfl, by simp⟩

theorem probes_variableScoped : Probes variableScoped StatementText := by
  refine ((probes_variableWord.bind fun _ => probes_opening.bind fun _ =>
    probes_scope.bind fun nv => probes_closing.bind fun _ => probes_equals.bind fun _ =>
    probes_values.bind fun vs => .pure (Statement.byScope nv.1 nv.2 vs)).tracked .variableScoped).mono ?_
  rintro _ s ⟨_, _, _, ⟨blanks, hb, rfl⟩, ⟨o, _, _, ho, ⟨_, _, _, ⟨n, is, w, hn, his, hw, rfl, rfl⟩,
    ⟨c, _, _, hc, ⟨eq, _, _, heq, ⟨v, vs, _, hv, ⟨rfl, rfl⟩, rfl⟩, rfl⟩, rfl⟩, rfl⟩, rfl⟩, rfl⟩
  simpa using StatementText.byScope (ho.prepend_blanks hb) hn his hw hc heq hv

theorem probes_variableDouble : Probes variableDouble StatementText := by
  refine ((probes_variableWord.bind fun _ => probes_opening.bind fun _ =>
    (probes_word .realm).bind fun m => probes_closing.bind fun _ => probes_opening.bind fun _ =>
    (probes_word .frequency).bind fun f => probes_closing.bind fun _ => probes_equals.bind fun _ =>
    probes_values.bind fun vs => .pure (Statement.byRealm m f vs)).tracked .variableDouble).mono ?_
  rintro _ s ⟨_, _, _, ⟨blanks, hb, rfl⟩, ⟨o, _, _, ho, ⟨m, _, _, ⟨hm, rfl⟩, ⟨c, _, _, hc, ⟨p, _, _, hp,
    ⟨f, _, _, ⟨hf, rfl⟩, ⟨d, _, _, hd, ⟨eq, _, _, heq, ⟨v, vs, _, hv, ⟨rfl, rfl⟩, rfl⟩, rfl⟩, rfl⟩, rfl⟩, rfl⟩,
    rfl⟩, rfl⟩, rfl⟩, rfl⟩
  simpa using StatementText.byRealm (ho.prepend_blanks hb) hm hc hp hf hd heq hv

/-- A statement is what is passed, and a failure in it is at a place to which the text of a statement could
    have led. -/
theorem probes_statement : Probes statement StatementText :=
  probes_variableDouble.orElse (probes_variableScoped.orElse (probes_variableFrequency.orElse probes_basic))

end Reader

end FacetQuery.Selection

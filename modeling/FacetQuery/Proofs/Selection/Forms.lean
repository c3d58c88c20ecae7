import FacetQuery.Proofs.Selection.Reading

/-!
# `FacetQuery.Proofs.Selection.Forms` — the four statement forms, read in order

Soundness is one composition of pieces for each form. Completeness has to show in addition that the forms
which are tried first refuse the text: they go on until a symbol is missing, so each refusal names the
piece at which it happens. What the three bracketed forms share is said once (`Reads.bracket`,
`Refuses.bracket`), and so is the assignment at the end of all forms (`Reads.assigned`).

Main statements: `statement_yields` and `Reads.statement`.
-/

namespace FacetQuery.Selection

theorem SymbolText.prepend_blanks {k : Char} {blanks text : List Char} (hb : AllIn isBlank blanks)
    (h : SymbolText k text) : SymbolText k (blanks ++ text) := by
  cases h with
  | around hb' ha =>
      rw [← List.append_assoc]
      exact .around (hb.append hb') ha

/-- Behind the blanks in front of a symbol stands its character. -/
theorem SymbolText.dropWhile_eq_cons {k : Char} {s : List Char} (hs : SymbolText k s)
    (hk : isBlank k = false) (rest : List Char) :
    ∃ after, (s ++ rest).dropWhile isBlank = k :: after := by
  cases hs with
  | @around before after hb _ =>
      refine ⟨after ++ rest, ?_⟩
      rw [List.append_assoc, hb.dropWhile_append, List.cons_append, List.dropWhile_cons_of_neg]
      simp [hk]

/-- The text of a statement begins with a character of a word. -/
theorem StatementText.exists_cons {text : List Char} {s : Statement} (h : StatementText text s) :
    ∃ c cs, text = c :: cs ∧ isWordChar c = true := by
  cases h with
  | @basic n eq v _ hn _ _ =>
      obtain ⟨c, cs, rfl⟩ := List.exists_cons_of_ne_nil hn.1
      exact ⟨c, cs ++ eq ++ v, rfl, hn.2 c (by simp)⟩
  | byFrequency => exact ⟨'v', _, rfl, by decide⟩
  | byScope => exact ⟨'v', _, rfl, by decide⟩
  | byRealm => exact ⟨'v', _, rfl, by decide⟩

namespace Reader

variable {β : Type}

/-! ## What the forms share -/

theorem variableWord_yields : variableWord.Yields fun t _ r =>
    ∃ blanks, AllIn isBlank blanks ∧ t = variableChars ++ (blanks ++ r) := by
  refine ((keyword_yields variableChars).bind fun _ => skip_yields isBlank).mono ?_
  rintro t u r ⟨_, mid, rfl, blanks, hb, rfl⟩
  exact ⟨blanks, hb, rfl⟩

theorem Reads.variableWord (rest : List Char) :
    Reader.variableWord.Reads (variableChars ++ rest) () (rest.dropWhile isBlank) :=
  (Reads.keyword variableChars rest).bind (Reads.skip isBlank rest)

/-- The head of a bracketed form, and a text inside the bracket that does not begin with a blank. -/
theorem Reads.bracket {g : Unit → Reader β} {o inner rest : List Char} {b : β}
    (ho : SymbolText '[' o) (hi : Halts isBlank inner) (hg : (g ()).Reads inner b rest) :
    (Reader.variableWord >>= fun _ => Reader.symbol '[' >>= g).Reads
      (variableChars ++ (o ++ inner)) b rest := by
  refine (Reads.variableWord _).bind ((Reads.symbol_dropWhile (by decide) ho).bind ?_)
  rw [hi.dropWhile_eq]
  exact hg

theorem Refuses.bracket {g : Unit → Reader β} {o inner : List Char} (ho : SymbolText '[' o)
    (hi : Halts isBlank inner) (hg : (g ()).Refuses inner) :
    (Reader.variableWord >>= fun _ => Reader.symbol '[' >>= g).Refuses
      (variableChars ++ (o ++ inner)) := by
  refine (Reads.variableWord _).bind_refuses
    ((Reads.symbol_dropWhile (by decide) ho).bind_refuses ?_)
  rw [hi.dropWhile_eq]
  exact hg

/-- The assignment at the end of a form, with or without the blanks in front of it. -/
theorem Reads.assigned {eq v : List Char} {vs : List String} (heq : SymbolText '=' eq)
    (hv : ValuesText v vs) (k : List String → Statement) :
    Reads (Reader.symbol '=' >>= fun _ => Reader.values >>= fun vs => Pure.pure (k vs))
        (eq ++ v) (k vs) [] ∧
      Reads (Reader.symbol '=' >>= fun _ => Reader.values >>= fun vs => Pure.pure (k vs))
        ((eq ++ v).dropWhile isBlank) (k vs) [] := by
  have hvalues : Reads (Reader.values >>= fun vs => Pure.pure (k vs)) (v.dropWhile isBlank) (k vs) [] :=
    (Reads.values hv.dropWhile_isBlank).bind (Reads.pure [] (k vs))
  exact ⟨(Reads.symbol (by decide) heq).bind hvalues,
    (Reads.symbol_dropWhile (by decide) heq).bind hvalues⟩

/-- Where one symbol stands no other is read. -/
theorem Refuses.other_symbol {j k : Char} {s : List Char} (hs : SymbolText k s)
    (hk : isBlank k = false) (hjk : k ≠ j) (rest : List Char) :
    (Reader.symbol j).Refuses (s ++ rest) ∧
      (Reader.symbol j).Refuses ((s ++ rest).dropWhile isBlank) := by
  obtain ⟨after, hafter⟩ := hs.dropWhile_eq_cons hk rest
  have hhead : ((s ++ rest).dropWhile isBlank).head? ≠ some j := by
    rw [hafter]
    simpa using hjk
  have hsame : ((s ++ rest).dropWhile isBlank).dropWhile isBlank = (s ++ rest).dropWhile isBlank :=
    (halts_dropWhile isBlank (s ++ rest)).dropWhile_eq
  refine ⟨Refuses.symbol (by simp [hafter]) hhead, Refuses.symbol ?_ ?_⟩
  · rw [hsame, hafter]
    exact List.cons_ne_nil k after
  · rw [hsame]
    exact hhead

/-! ## Soundness -/

theorem basic_yields : basic.Yields fun t s r => ∃ u, StatementText u s ∧ t = u ++ r := by
  refine (((word_yields .name).bind fun n => (symbol_yields '=').bind fun _ =>
    values_yields.bind fun vs => .pure (Statement.basic n vs)).tracked .facet).mono ?_
  rintro t s r ⟨_, _, ⟨n, hn, rfl, rfl⟩, _, _, ⟨eq, heq, rfl⟩, vs, _, ⟨v, hv, rfl⟩, rfl, rfl⟩
  exact ⟨_, .basic hn heq hv, by simp only [List.append_assoc]⟩

theorem variableFrequency_yields :
    variableFrequency.Yields fun t s r => ∃ u, StatementText u s ∧ t = u ++ r := by
  refine ((variableWord_yields.bind fun _ => (symbol_yields '[').bind fun _ =>
    (word_yields .frequency).bind fun f => (symbol_yields ']').bind fun _ =>
    (symbol_yields '=').bind fun _ => values_yields.bind fun vs =>
    .pure (Statement.byFrequency f vs)).tracked .variableFrequency).mono ?_
  rintro t s r ⟨_, _, ⟨blanks, hb, rfl⟩, _, _, ⟨o, ho, rfl⟩, _, _, ⟨f, hf, rfl, rfl⟩, _, _,
    ⟨c, hc, rfl⟩, _, _, ⟨eq, heq, rfl⟩, vs, _, ⟨v, hv, rfl⟩, rfl, rfl⟩
  exact ⟨_, .byFrequency (ho.prepend_blanks hb) hf hc heq hv, by simp only [List.append_assoc]⟩

theorem scope_yields : scope.Yields fun t nw r => ∃ n is w, IsWord n ∧ SymbolText '=' is ∧ IsWord w ∧
    nw = (String.ofList n, String.ofList w) ∧ t = n ++ (is ++ (w ++ r)) := by
  refine (((word_yields .name).bind fun n => (symbol_yields '=').bind fun _ =>
    (word_yields .value).bind fun w => .pure (n, w)).tracked .scope).mono ?_
  rintro t nw r ⟨_, _, ⟨n, hn, rfl, rfl⟩, _, _, ⟨is, his, rfl⟩, _, _, ⟨w, hw, rfl, rfl⟩, rfl, rfl⟩
  exact ⟨n, is, w, hn, his, hw, rfl, rfl⟩

theorem variableScoped_yields :
    variableScoped.Yields fun t s r => ∃ u, StatementText u s ∧ t = u ++ r := by
  refine ((variableWord_yields.bind fun _ => (symbol_yields '[').bind fun _ =>
    scope_yields.bind fun nw => (symbol_yields ']').bind fun _ => (symbol_yields '=').bind fun _ =>
    values_yields.bind fun vs => .pure (Statement.byScope nw.1 nw.2 vs)).tracked .variableScoped).mono ?_
  rintro t s r ⟨_, _, ⟨blanks, hb, rfl⟩, _, _, ⟨o, ho, rfl⟩, _, _,
    ⟨n, is, w, hn, his, hw, rfl, rfl⟩, _, _, ⟨c, hc, rfl⟩, _, _, ⟨eq, heq, rfl⟩, vs, _,
    ⟨v, hv, rfl⟩, rfl, rfl⟩
  exact ⟨_, .byScope (ho.prepend_blanks hb) hn his hw hc heq hv, by simp only [List.append_assoc]⟩

theorem variableDouble_yields :
    variableDouble.Yields fun t s r => ∃ u, StatementText u s ∧ t = u ++ r := by
  refine ((variableWord_yields.bind fun _ => (symbol_yields '[').bind fun _ =>
    (word_yields .realm).bind fun m => (symbol_yields ']').bind fun _ =>
    (symbol_yields '[').bind fun _ => (word_yields .frequency).bind fun f =>
    (symbol_yields ']').bind fun _ => (symbol_yields '=').bind fun _ =>
    values_yields.bind fun vs => .pure (Statement.byRealm m f vs)).tracked .variableDouble).mono ?_
  rintro t s r ⟨_, _, ⟨blanks, hb, rfl⟩, _, _, ⟨o, ho, rfl⟩, _, _, ⟨m, hm, rfl, rfl⟩, _, _,
    ⟨c, hc, rfl⟩, _, _, ⟨p, hp, rfl⟩, _, _, ⟨f, hf, rfl, rfl⟩, _, _, ⟨d, hd, rfl⟩, _, _,
    ⟨eq, heq, rfl⟩, vs, _, ⟨v, hv, rfl⟩, rfl, rfl⟩
  exact ⟨_, .byRealm (ho.prepend_blanks hb) hm hc hp hf hd heq hv, by simp only [List.append_assoc]⟩

/-- What is read as a statement is the text of that statement. -/
theorem statement_yields : statement.Yields fun t s r => ∃ u, StatementText u s ∧ t = u ++ r :=
  variableDouble_yields.orElse (variableScoped_yields.orElse
    (variableFrequency_yields.orElse basic_yields))

/-! ## Completeness -/

section Bracketed

variable {o f c eq v : List Char} {vs : List String} (ho : SymbolText '[' o) (hf : IsWord f)
  (hc : SymbolText ']' c)

include ho hf hc

theorem Reads.variableFrequency (heq : SymbolText '=' eq) (hv : ValuesText v vs) :
    Reader.variableFrequency.Reads (variableChars ++ (o ++ (f ++ (c ++ (eq ++ v)))))
      (.byFrequency (String.ofList f) vs) [] := by
  refine (Reads.bracket ho (hf.halts_isBlank _) ?_).tracked _
  refine (Reads.word _ hf (hc.halts_isWordChar (by decide) _)).bind ?_
  exact (Reads.symbol (by decide) hc).bind (Reads.assigned heq hv _).2

/-- No scope stands where the bracket closes behind the first word. -/
theorem Refuses.variableScoped (rest : List Char) :
    Reader.variableScoped.Refuses (variableChars ++ (o ++ (f ++ (c ++ rest)))) := by
  refine (Refuses.bracket ho (hf.halts_isBlank _) (Refuses.bind (Refuses.tracked _ ?_) _)).tracked _
  refine (Reads.word _ hf (hc.halts_isWordChar (by decide) _)).bind_refuses ?_
  exact Refuses.bind (Refuses.other_symbol hc (by decide) (by decide) rest).1 _

/-- No second bracket stands where the first is followed by `=`. -/
theorem Refuses.variableDouble (heq : SymbolText '=' eq) (rest : List Char) :
    Reader.variableDouble.Refuses (variableChars ++ (o ++ (f ++ (c ++ (eq ++ rest))))) := by
  refine (Refuses.bracket ho (hf.halts_isBlank _) ?_).tracked _
  refine (Reads.word _ hf (hc.halts_isWordChar (by decide) _)).bind_refuses ?_
  refine (Reads.symbol (by decide) hc).bind_refuses ?_
  exact Refuses.bind (Refuses.other_symbol heq (by decide) (by decide) rest).2 _

theorem Reads.variableDouble {p g d : List Char} (hp : SymbolText '[' p) (hg : IsWord g)
    (hd : SymbolText ']' d) (heq : SymbolText '=' eq) (hv : ValuesText v vs) :
    Reader.variableDouble.Reads
      (variableChars ++ (o ++ (f ++ (c ++ (p ++ (g ++ (d ++ (eq ++ v))))))))
      (.byRealm (String.ofList f) (String.ofList g) vs) [] := by
  refine (Reads.bracket ho (hf.halts_isBlank _) ?_).tracked _
  refine (Reads.word _ hf (hc.halts_isWordChar (by decide) _)).bind ?_
  refine (Reads.symbol (by decide) hc).bind ((Reads.symbol_dropWhile (by decide) hp).bind ?_)
  rw [(hg.halts_isBlank _).dropWhile_eq]
  refine (Reads.word _ hg (hd.halts_isWordChar (by decide) _)).bind ?_
  exact (Reads.symbol (by decide) hd).bind (Reads.assigned heq hv _).2

end Bracketed

section Scoped

variable {o n is w c eq v : List Char} {vs : List String} (ho : SymbolText '[' o) (hn : IsWord n)
  (his : SymbolText '=' is)

include ho hn his

theorem Reads.variableScoped (hw : IsWord w) (hc : SymbolText ']' c) (heq : SymbolText '=' eq)
    (hv : ValuesText v vs) :
    Reader.variableScoped.Reads (variableChars ++ (o ++ (n ++ (is ++ (w ++ (c ++ (eq ++ v)))))))
      (.byScope (String.ofList n) (String.ofList w) vs) [] := by
  refine (Reads.bracket ho (hn.halts_isBlank _) ?_).tracked _
  have hscope : Reader.scope.Reads (n ++ (is ++ (w ++ (c ++ (eq ++ v)))))
      (String.ofList n, String.ofList w) (c ++ (eq ++ v)) := by
    refine ((Reads.word _ hn (his.halts_isWordChar (by decide) _)).bind ?_).tracked _
    refine (Reads.symbol (by decide) his).bind ?_
    rw [(hw.halts_isBlank _).dropWhile_eq]
    exact (Reads.word _ hw (hc.halts_isWordChar (by decide) _)).bind (Reads.pure _ _)
  exact hscope.bind ((Reads.symbol (by decide) hc).bind (Reads.assigned heq hv _).2)

/-- The bracket of a realm closes behind its word. -/
theorem Refuses.variableDouble_scoped (rest : List Char) :
    Reader.variableDouble.Refuses (variableChars ++ (o ++ (n ++ (is ++ rest)))) := by
  refine (Refuses.bracket ho (hn.halts_isBlank _) ?_).tracked _
  refine (Reads.word _ hn (his.halts_isWordChar (by decide) _)).bind_refuses ?_
  exact Refuses.bind (Refuses.other_symbol his (by decide) (by decide) rest).1 _

end Scoped

/-- A basic line opens no bracketed form, whatever its name begins with. -/
theorem Refuses.bracket_basic {n eq : List Char} (hn : IsWord n) (heq : SymbolText '=' eq)
    (g : Unit → Reader β) (rest : List Char) :
    (Reader.variableWord >>= fun _ => Reader.symbol '[' >>= g).Refuses (n ++ (eq ++ rest)) := by
  by_cases hp : variableChars <+: n ++ (eq ++ rest)
  · -- the name is at least `variable`: a longer name goes on with a word, this one with `=`
    obtain ⟨tail, htail⟩ := hp
    rw [← htail]
    refine (Reads.variableWord tail).bind_refuses (Refuses.bind ?_ _)
    rcases List.append_eq_append_iff.mp htail with ⟨more, hname, htext⟩ | ⟨more, hname, htext⟩
    · rw [htext]
      cases more with
      | nil => exact (Refuses.other_symbol heq (by decide) (by decide) rest).2
      | cons x xs =>
          have hx : isWordChar x = true := hn.2 x (by simp [hname])
          have hfront : (x :: (xs ++ (eq ++ rest))).dropWhile isBlank = x :: (xs ++ (eq ++ rest)) :=
            Halts.dropWhile_eq (halts_cons.mpr (isBlank_eq_false_of_isWordChar hx))
          rw [List.cons_append, hfront]
          refine Refuses.symbol (by rw [hfront]; exact List.cons_ne_nil _ _) ?_
          rw [hfront]
          rintro ⟨⟩
          exact Bool.false_ne_true hx
    · -- `variable` is the name with a part of what follows it, which then is no part at all
      cases more with
      | nil =>
          rw [List.nil_append] at htext
          rw [← htext]
          exact (Refuses.other_symbol heq (by decide) (by decide) rest).2
      | cons x xs =>
          have hhalt := heq.halts_isWordChar (by decide) rest
          rw [htext, List.cons_append, halts_cons] at hhalt
          have hx : x ∈ variableChars := by simp [hname]
          have hall : variableChars.all isWordChar = true := by decide
          exact absurd (List.all_eq_true.mp hall x hx) (by simp [hhalt])
  · exact Refuses.bind (Refuses.bind (Refuses.keyword hp) _) _

theorem Reads.basic {n eq v : List Char} {vs : List String} (hn : IsWord n) (heq : SymbolText '=' eq)
    (hv : ValuesText v vs) :
    Reader.basic.Reads (n ++ (eq ++ v)) (.basic (String.ofList n) vs) [] :=
  ((Reads.word _ hn (heq.halts_isWordChar (by decide) _)).bind (Reads.assigned heq hv _).1).tracked _

/-- The text of a statement is read as that statement, and to its end. -/
theorem Reads.statement {text : List Char} {s : Statement} (h : StatementText text s) :
    Reader.statement.Reads text s [] := by
  cases h with
  | basic hn heq hv =>
      -- the three bracketed forms come first, and all of them need a bracket behind `variable`
      rw [List.append_assoc]
      refine Reads.orElse_right ((Refuses.bracket_basic hn heq _ _).tracked _) ?_
      refine Reads.orElse_right ((Refuses.bracket_basic hn heq _ _).tracked _) ?_
      refine Reads.orElse_right ((Refuses.bracket_basic hn heq _ _).tracked _) ?_
      exact Reads.basic hn heq hv
  | byFrequency ho hf hc heq hv =>
      -- `=` stands where a second bracket would, and `]` where the `=` of a scope would
      simp only [List.append_assoc]
      refine Reads.orElse_right (Refuses.variableDouble ho hf hc heq _) ?_
      refine Reads.orElse_right (Refuses.variableScoped ho hf hc _) ?_
      exact Reads.orElse_left (Reads.variableFrequency ho hf hc heq hv) _
  | byScope ho hn his hw hc heq hv =>
      -- `=` stands where the bracket of a realm would close
      simp only [List.append_assoc]
      refine Reads.orElse_right (Refuses.variableDouble_scoped ho hn his _) ?_
      exact Reads.orElse_left (Reads.variableScoped ho hn his hw hc heq hv) _
  | byRealm ho hr hc hp hf hd heq hv =>
      simp only [List.append_assoc]
      exact Reads.orElse_left (Reads.variableDouble ho hr hc hp hf hd heq hv) _

end Reader

end FacetQuery.Selection

import FacetQuery.Proofs.Conversion.Ends

/-!
# `FacetQuery.Proofs.Query.Layout` — the text form of a selection's query determines the query

The text form marks its structure with an indent, a colon, quotes and commas only. None of these stands in a word,
and the names and values of a query that was made from a selection are words: that, with at least one value in each
facet and one facet in each request, is `Query.Worded`. Then every mark is found again, from the outside in: the
lines at their breaks, the requests at the indent of their first line, the name at the colon, the values at the
commas (`Query.layout_inj`). A facet called `requests` is no exception, as its line goes on behind the colon.

Without that the form is ambiguous: a facet without values and one with an empty value look alike, and so do a
request without facets and none.

Main statement: `Conversion.query_eq_of_process_eq`.
-/

namespace FacetQuery

open Selection (IsWord isWordChar)

/-! ## Where a text is cut -/

/-- Two texts that end at the first of the same mark are cut there alike. -/
theorem append_cons_inj {α : Type} {mark : α} {as bs t u : List α} (ha : mark ∉ as) (hb : mark ∉ bs)
    (h : as ++ mark :: t = bs ++ mark :: u) : as = bs ∧ t = u := by
  induction as generalizing bs with
  | nil =>
      cases bs with
      | nil => exact ⟨rfl, List.tail_eq_of_cons_eq h⟩
      | cons b bs => exact absurd (List.head_eq_of_cons_eq h ▸ List.mem_cons_self) hb
  | cons a as ih =>
      cases bs with
      | nil => exact absurd (List.head_eq_of_cons_eq h ▸ List.mem_cons_self) ha
      | cons b bs =>
          obtain ⟨rfl, htail⟩ := List.cons.inj h
          obtain ⟨rfl, rest⟩ := ih (fun hm => ha (List.mem_cons_of_mem _ hm))
            (fun hm => hb (List.mem_cons_of_mem _ hm)) htail
          exact ⟨rfl, rest⟩

/-- Two lists that are written item by item, each in front of something that starts with no item, are equal if
    what is written is. -/
theorem map_append_inj {α β : Type} {write : α → β} {good : α → Prop}
    (hinj : ∀ a b, good a → good b → write a = write b → a = b) {as bs : List α} {t u : List β}
    (ha : ∀ a ∈ as, good a) (hb : ∀ b ∈ bs, good b) (ht : ∀ x ∈ t.head?, ∀ a, good a → write a ≠ x)
    (hu : ∀ x ∈ u.head?, ∀ a, good a → write a ≠ x) (h : as.map write ++ t = bs.map write ++ u) :
    as = bs ∧ t = u := by
  induction as generalizing bs with
  | nil =>
      cases bs with
      | nil => exact ⟨rfl, h⟩
      | cons b bs =>
          refine absurd rfl (ht (write b) ?_ b (hb b List.mem_cons_self))
          rw [show t = _ from h]
          rfl
  | cons a as ih =>
      have hga := ha a List.mem_cons_self
      cases bs with
      | nil =>
          refine absurd rfl (hu (write a) ?_ a hga)
          rw [← show _ = u from h]
          rfl
      | cons b bs =>
          obtain ⟨hhead, htail⟩ := List.cons.inj h
          obtain rfl := hinj a b hga (hb b List.mem_cons_self) hhead
          obtain ⟨rfl, rest⟩ := ih (fun c hc => ha c (List.mem_cons_of_mem _ hc))
            (fun c hc => hb c (List.mem_cons_of_mem _ hc)) htail
          exact ⟨rfl, rest⟩

/-- A character other than the mark stands between marks only if it stands in a piece. -/
theorem not_mem_intercalate {c mark : Char} (hc : c ≠ mark) {ws : List (List Char)} (h : ∀ w ∈ ws, c ∉ w) :
    c ∉ [mark].intercalate ws := by
  induction ws with
  | nil => exact List.not_mem_nil
  | cons w ws ih =>
      have hw := h w List.mem_cons_self
      have hws := ih fun v hv => h v (List.mem_cons_of_mem w hv)
      cases ws with
      | nil => rwa [List.intercalate_singleton]
      | cons v vs =>
          rw [List.intercalate_cons_cons]
          simp [hw, hc, hws]

/-- Pieces that do not hold the mark between them are found again, if there is one. -/
theorem intercalate_inj {mark : Char} {vs ws : List (List Char)} (hv : ∀ v ∈ vs, mark ∉ v)
    (hw : ∀ w ∈ ws, mark ∉ w) (hvs : vs ≠ []) (hws : ws ≠ [])
    (h : [mark].intercalate vs = [mark].intercalate ws) : vs = ws := by
  rw [← List.splitOn_intercalate mark hv hvs, h, List.splitOn_intercalate mark hw hws]

/-- Lines that hold no break are found again. -/
theorem join_lines_inj {ls ms : List String} (hl : ∀ l ∈ ls, '\n' ∉ l.toList)
    (hm : ∀ m ∈ ms, '\n' ∉ m.toList)
    (h : String.join (ls.map (· ++ "\n")) = String.join (ms.map (· ++ "\n"))) : ls = ms := by
  have hchars : ls.flatMap (fun l => l.toList ++ ['\n']) = ms.flatMap fun m => m.toList ++ ['\n'] := by
    simpa [List.flatMap_map] using congrArg String.toList h
  clear h
  induction ls generalizing ms with
  | nil =>
      cases ms with
      | nil => rfl
      | cons m ms => simp at hchars
  | cons l ls ih =>
      cases ms with
      | nil => simp at hchars
      | cons m ms =>
          simp only [List.flatMap_cons, List.append_assoc, List.cons_append, List.nil_append] at hchars
          obtain ⟨hhead, htail⟩ :=
            append_cons_inj (hl l List.mem_cons_self) (hm m List.mem_cons_self) hchars
          rw [String.toList_inj.mp hhead, ih (fun k hk => hl k (List.mem_cons_of_mem _ hk))
            (fun k hk => hm k (List.mem_cons_of_mem _ hk)) htail]

/-! ## Facets of words -/

/-- A character that no word has stands in none. -/
theorem Selection.IsWord.not_mem {w : List Char} (h : IsWord w) {c : Char} (hc : isWordChar c = false) :
    c ∉ w := fun hm => Bool.false_ne_true (hc.symm.trans (h.2 c hm))

namespace Facet

/-- The name and the values are words, and there is a value. -/
structure Worded (f : Facet) : Prop where
  name : IsWord f.name.toList
  values_ne_nil : f.values ≠ []
  values : ∀ v ∈ f.values, IsWord v.toList

theorem toList_shown (f : Facet) :
    f.shown.toList =
      f.name.toList ++ ':' :: ' ' :: '"' :: ([','].intercalate (f.values.map String.toList) ++ ['"']) := by
  simp [shown]

theorem Worded.not_mem_values {f : Facet} (hf : f.Worded) {c : Char} (hc : isWordChar c = false) :
    ∀ w ∈ f.values.map String.toList, c ∉ w := by
  intro w hw
  obtain ⟨v, hv, rfl⟩ := List.mem_map.mp hw
  exact (hf.values v hv).not_mem hc

/-- A facet of words is determined by its line. -/
theorem Worded.shown_inj {f g : Facet} (hf : f.Worded) (hg : g.Worded) (h : f.shown = g.shown) : f = g := by
  have hchars := congrArg String.toList h
  rw [toList_shown, toList_shown] at hchars
  obtain ⟨hname, hrest⟩ := append_cons_inj (hf.name.not_mem rfl) (hg.name.not_mem rfl) hchars
  simp only [List.cons.injEq, true_and] at hrest
  have hlists : f.values.map String.toList = g.values.map String.toList :=
    intercalate_inj (hf.not_mem_values rfl) (hg.not_mem_values rfl) (by simpa using hf.values_ne_nil)
      (by simpa using hg.values_ne_nil) (List.append_cancel_right hrest)
  have hvalues : f.values = g.values := (List.map_inj_right fun _ _ => String.toList_inj.mp).mp hlists
  cases f
  cases g
  rw [Facet.mk.injEq]
  exact ⟨String.toList_inj.mp hname, hvalues⟩

/-- The line of a facet begins with a character of a word. -/
theorem Worded.exists_shown_cons {f : Facet} (hf : f.Worded) :
    ∃ c cs, f.shown.toList = c :: cs ∧ isWordChar c = true := by
  obtain ⟨c, cs, hcs⟩ := List.exists_cons_of_ne_nil hf.name.1
  refine ⟨c, _, by rw [toList_shown, hcs]; rfl, hf.name.2 c ?_⟩
  rw [hcs]
  exact List.mem_cons_self

/-- It holds no break. -/
theorem Worded.break_not_mem_shown {f : Facet} (hf : f.Worded) : '\n' ∉ f.shown.toList := by
  have hname : '\n' ∉ f.name.toList := hf.name.not_mem rfl
  have hvalues : '\n' ∉ [','].intercalate (f.values.map String.toList) :=
    not_mem_intercalate (by decide) (hf.not_mem_values rfl)
  rw [toList_shown]
  simp [hname, hvalues]

/-- It is not the line above requests, where no quote stands. -/
theorem shown_ne_requests (f : Facet) : f.shown ≠ "requests:" := by
  intro h
  have hquote : '"' ∈ f.shown.toList := by simp [toList_shown]
  rw [h] at hquote
  exact absurd hquote (by decide)

end Facet

/-! ## Queries of words -/

namespace Request

/-- The facets are of words, and there is one. -/
structure Worded (r : Request) : Prop where
  ne_nil : r ≠ []
  facets : ∀ f ∈ r, f.Worded

theorem Worded.exists_cons {r : Request} (h : Worded r) :
    ∃ f fs, r = f :: fs ∧ f.Worded ∧ ∀ g ∈ fs, g.Worded := by
  cases r with
  | nil => exact absurd rfl h.ne_nil
  | cons f fs =>
      obtain ⟨hf, hfs⟩ := List.forall_mem_cons.mp h.facets
      exact ⟨f, fs, rfl, hf, hfs⟩

/-- The indent tells the first line of a request from the others. -/
theorem head_ne_continuation {f g : Facet} (hf : f.Worded) : "    " ++ g.shown ≠ "  " ++ f.shown := by
  intro h
  obtain ⟨c, cs, hcs, hc⟩ := hf.exists_shown_cons
  have hchars := congrArg String.toList h
  rw [String.toList_append, String.toList_append, hcs] at hchars
  have hspace : ' ' = c := (List.cons.inj (List.cons.inj (List.cons.inj hchars).2).2).1
  rw [← hspace] at hc
  exact nomatch hc

/-- So the lines behind a request, which are those of the next, go on with no facet of it. -/
theorem continuation_ne_of_mem_head? {rs : List Request} (hrs : ∀ r ∈ rs, Worded r) :
    ∀ line ∈ (rs.flatMap lines).head?, ∀ g : Facet, g.Worded → "    " ++ g.shown ≠ line := by
  intro line hline g _
  cases rs with
  | nil => exact nomatch hline
  | cons r rs =>
      obtain ⟨f, fs, rfl, hf, -⟩ := (hrs r List.mem_cons_self).exists_cons
      have hfirst : "  " ++ f.shown = line := Option.some.inj hline
      rw [← hfirst]
      exact head_ne_continuation hf

/-- Requests of words are determined by their lines. -/
theorem flatMap_lines_inj {rs ss : List Request} (hrs : ∀ r ∈ rs, Worded r) (hss : ∀ s ∈ ss, Worded s)
    (h : rs.flatMap lines = ss.flatMap lines) : rs = ss := by
  induction rs generalizing ss with
  | nil =>
      cases ss with
      | nil => rfl
      | cons s ss =>
          obtain ⟨g, gs, rfl, -, -⟩ := (hss s List.mem_cons_self).exists_cons
          exact nomatch h
  | cons r rs ih =>
      obtain ⟨hr, hrest⟩ := List.forall_mem_cons.mp hrs
      obtain ⟨f, fs, rfl, hf, hfs⟩ := hr.exists_cons
      cases ss with
      | nil => exact nomatch h
      | cons s ss =>
          obtain ⟨hs, hrest'⟩ := List.forall_mem_cons.mp hss
          obtain ⟨g, gs, rfl, hg, hgs⟩ := hs.exists_cons
          obtain ⟨hhead, htail⟩ := List.cons.inj h
          have hfirst : f = g := hf.shown_inj hg ((String.append_right_inj _).mp hhead)
          obtain ⟨hothers, hlines⟩ := map_append_inj
            (fun a b ha hb hab => Facet.Worded.shown_inj ha hb ((String.append_right_inj _).mp hab))
            hfs hgs (continuation_ne_of_mem_head? hrest) (continuation_ne_of_mem_head? hrest') htail
          rw [hfirst, hothers, ih hrest hrest' hlines]

/-- No line of a request holds a break. -/
theorem Worded.break_not_mem_lines {r : Request} (h : Worded r) : ∀ l ∈ lines r, '\n' ∉ l.toList := by
  obtain ⟨f, fs, rfl, hf, hfs⟩ := h.exists_cons
  have hhead := hf.break_not_mem_shown
  refine List.forall_mem_cons.mpr ⟨by simp [hhead], fun l hl => ?_⟩
  obtain ⟨g, hg, rfl⟩ := List.mem_map.mp hl
  have hcontinued := (hfs g hg).break_not_mem_shown
  simp [hcontinued]

end Request

namespace Query

/-- The root facets are of words, and so are the requests. -/
structure Worded (q : Query) : Prop where
  facets : ∀ f ∈ q.facets, f.Worded
  requests : ∀ r ∈ q.requests, Request.Worded r

variable {p q : Query}

theorem Worded.break_not_mem_lines (hq : q.Worded) : ∀ l ∈ q.lines, '\n' ∉ l.toList := by
  intro l hl
  rcases List.mem_append.mp hl with hl | hl
  · obtain ⟨f, hf, rfl⟩ := List.mem_map.mp hl
    exact (hq.facets f hf).break_not_mem_shown
  · split at hl
    · exact nomatch hl
    · rcases List.mem_cons.mp hl with rfl | hl
      · decide
      · obtain ⟨r, hr, hl⟩ := List.mem_flatMap.mp hl
        exact (hq.requests r hr).break_not_mem_lines l hl

/-- The lines behind the root facets go on with no facet. -/
theorem shown_ne_of_mem_head? (rs : List Request) :
    ∀ line ∈ (if rs.isEmpty then [] else "requests:" :: rs.flatMap Request.lines).head?,
      ∀ f : Facet, f.Worded → f.shown ≠ line := by
  intro line hline f _
  split at hline
  · exact nomatch hline
  · rw [← Option.some.inj hline]
    exact f.shown_ne_requests

/-- **A query of words is determined by its text form.** -/
theorem layout_inj (hp : p.Worded) (hq : q.Worded) (h : p.layout = q.layout) : p = q := by
  have hlines : p.lines = q.lines := join_lines_inj hp.break_not_mem_lines hq.break_not_mem_lines h
  obtain ⟨hfacets, hrest⟩ := map_append_inj (fun a b ha hb => Facet.Worded.shown_inj ha hb) hp.facets
    hq.facets (shown_ne_of_mem_head? p.requests) (shown_ne_of_mem_head? q.requests) hlines
  have hrequests : p.requests = q.requests := by
    cases hps : p.requests with
    | nil =>
        cases hqs : q.requests with
        | nil => rfl
        | cons s ss =>
            rw [hps, hqs] at hrest
            exact nomatch hrest
    | cons r rs =>
        cases hqs : q.requests with
        | nil =>
            rw [hps, hqs] at hrest
            exact nomatch hrest
        | cons s ss =>
            rw [hps, hqs] at hrest
            exact Request.flatMap_lines_inj (hps ▸ hp.requests) (hqs ▸ hq.requests) (List.cons.inj hrest).2
  cases p
  cases q
  rw [Query.mk.injEq]
  exact ⟨hfacets, hrequests⟩

/-- Not so without words: no value and an empty value look alike. -/
example : Query.layout ⟨[⟨"n", []⟩], []⟩ = Query.layout ⟨[⟨"n", [""]⟩], []⟩ := by rfl

end Query

/-! ## Queries of selections -/

namespace Selection

theorem IsWord.toList_ofList {w : List Char} (h : IsWord w) : IsWord (String.ofList w).toList := by
  rwa [String.toList_ofList]

/-- The names that are given to a facet of a variable line, also under CMIP6, are words. -/
theorem isWord_givenNames : ∀ n ∈ ["frequency", "variable", "realm", "table_id", "variable_id"],
    IsWord n.toList := by
  intro n hn
  have hchars : n.toList ≠ [] ∧ n.toList.all isWordChar = true := by
    revert n
    decide
  exact ⟨hchars.1, List.all_eq_true.mp hchars.2⟩

theorem MoreText.words {text : List Char} {vs : List String} (h : MoreText text vs) :
    ∀ v ∈ vs, IsWord v.toList := by
  induction h with
  | done => exact fun _ h => nomatch h
  | more _ _ hw _ ih => exact List.forall_mem_cons.mpr ⟨hw.toList_ofList, ih⟩

/-- A name with a value list is a facet of words. -/
theorem ValuesText.worded {text : List Char} {vs : List String} (h : ValuesText text vs) {n : String}
    (hn : IsWord n.toList) : Facet.Worded ⟨n, vs⟩ := by
  cases h with
  | list _ hw hr =>
      exact ⟨hn, List.cons_ne_nil _ _, List.forall_mem_cons.mpr ⟨hw.toList_ofList, hr.words⟩⟩

theorem IsWord.worded {w : List Char} (hw : IsWord w) {n : String} (hn : IsWord n.toList) :
    Facet.Worded ⟨n, [String.ofList w]⟩ :=
  ⟨hn, List.cons_ne_nil _ _, List.forall_mem_singleton.mpr hw.toList_ofList⟩

/-- Whatever is excluded, a statement contributes facets and requests of words. -/
theorem StatementText.worded {text : List Char} {s : Statement} (h : StatementText text s)
    (x : Exclusions) : (∀ f ∈ s.facets x, f.Worded) ∧ ∀ r ∈ s.requests x, Request.Worded r := by
  have hfrequency : IsWord "frequency".toList := isWord_givenNames _ (by decide)
  have hvariable : IsWord "variable".toList := isWord_givenNames _ (by decide)
  have hrealm : IsWord "realm".toList := isWord_givenNames _ (by decide)
  cases h with
  | @basic n _ _ _ hn _ hv =>
      refine ⟨?_, List.forall_mem_nil _⟩
      rw [Statement.facets]
      split
      · exact List.forall_mem_nil _
      · exact List.forall_mem_singleton.mpr (hv.worded hn.toList_ofList)
  | byFrequency _ hf _ _ hv =>
      refine ⟨List.forall_mem_nil _, List.forall_mem_singleton.mpr ⟨List.cons_ne_nil _ _, ?_⟩⟩
      exact List.forall_mem_cons.mpr ⟨hf.worded hfrequency,
        List.forall_mem_singleton.mpr (hv.worded hvariable)⟩
  | byScope _ hn _ hw _ _ hv =>
      refine ⟨List.forall_mem_nil _, ?_⟩
      rw [Statement.requests]
      split
      · exact List.forall_mem_singleton.mpr ⟨List.cons_ne_nil _ _,
          List.forall_mem_singleton.mpr (hv.worded hvariable)⟩
      · refine List.forall_mem_singleton.mpr ⟨List.cons_ne_nil _ _, ?_⟩
        exact List.forall_mem_cons.mpr ⟨hw.worded hn.toList_ofList,
          List.forall_mem_singleton.mpr (hv.worded hvariable)⟩
  | byRealm _ hr _ _ hf _ _ hv =>
      refine ⟨List.forall_mem_nil _, List.forall_mem_singleton.mpr ⟨List.cons_ne_nil _ _, ?_⟩⟩
      exact List.forall_mem_cons.mpr ⟨hr.worded hrealm, List.forall_mem_cons.mpr
        ⟨hf.worded hfrequency, List.forall_mem_singleton.mpr (hv.worded hvariable)⟩⟩

/-- The lines of a selection make a query of words. -/
theorem LinesText.worded {lines : List (List Char)} {ss : List Statement} (h : LinesText lines ss)
    (x : Exclusions) : (Query.ofStatements x ss).Worded := by
  induction h with
  | nil => exact ⟨List.forall_mem_nil _, List.forall_mem_nil _⟩
  | @cons line made lines ss hl _ ih =>
      cases hl with
      | blank => exact ih
      | comment => exact ih
      | statement _ hs =>
          obtain ⟨hfacets, hrequests⟩ := hs.worded x
          constructor
          · exact List.forall_mem_append.mpr ⟨hfacets, ih.facets⟩
          · exact List.forall_mem_append.mpr ⟨hrequests, ih.requests⟩

end Selection

/-- Under its CMIP6 name a facet of words is one. -/
theorem Facet.Worded.rename {f : Facet} (h : f.Worded) : (Query.renameFacet f).Worded := by
  refine ⟨?_, h.values_ne_nil, h.values⟩
  show IsWord (Query.cmip6Name f.name).toList
  unfold Query.cmip6Name
  split
  · exact Selection.isWord_givenNames _ (by decide)
  · split
    · exact Selection.isWord_givenNames _ (by decide)
    · exact h.name

theorem Query.Worded.rename {q : Query} (h : q.Worded) : q.rename.Worded := by
  constructor
  · intro f hf
    obtain ⟨g, hg, rfl⟩ := List.mem_map.mp hf
    exact (h.facets g hg).rename
  · intro r hr
    obtain ⟨r, hmem, rfl⟩ := List.mem_map.mp hr
    have hw := h.requests r hmem
    refine ⟨by simpa using hw.ne_nil, fun f hf => ?_⟩
    obtain ⟨g, hg, rfl⟩ := List.mem_map.mp hf
    exact (hw.facets g hg).rename

/-- A rendering is what the query is written as. -/
theorem Query.written_of_render {q : Query} {format : Format} {rendering : String}
    (h : q.render format = some rendering) : q.written format = rendering := by
  unfold Query.render at h
  split at h
  · exact nomatch h
  · exact Option.some.inj h

/-- The query that the lines of a selection make is of words, also under the names of its generation. -/
theorem Query.worded_ofSelection {lines : List (List Char)} {ss : List Selection.Statement}
    (h : Selection.LinesText lines ss) (x : Exclusions) : (ofSelection x ss).Worded := by
  rw [ofSelection, snd_postprocess]
  split
  · exact (h.worded x).rename
  · exact h.worded x

namespace Conversion

variable {c d c' d' : Conversion} {text text' rendering : String} {x x' : Exclusions}

/-- What a successful conversion leaves: a query of words, whose text form is the result. -/
theorem layout_of_process (h : (c.process text x .text).value = (.ok rendering, d)) :
    d.query.Worded ∧ d.query.layout = rendering := by
  obtain ⟨ss, hsel, hquery, hrender⟩ := query_of_process h
  constructor
  · rw [hquery]
    exact Query.worded_ofSelection hsel x
  · exact Query.written_of_render hrender

/-- **The text form determines the query.** Take any conversions, texts and exclusions that yield text forms. If
    these are equal, so are the queries that are left. -/
theorem query_eq_of_process_eq (h : (c.process text x .text).value = (.ok rendering, d))
    (h' : (c'.process text' x' .text).value = (.ok rendering, d')) : d.query = d'.query := by
  obtain ⟨hworded, hlayout⟩ := layout_of_process h
  obtain ⟨hworded', hlayout'⟩ := layout_of_process h'
  exact Query.layout_inj hworded hworded' (hlayout.trans hlayout'.symm)

theorem exists_of_process {format : Format}
    (h : (c.process text x format).value.1.toOption = some rendering) :
    ∃ d, (c.process text x format).value = (.ok rendering, d) := by
  cases hprocess : (c.process text x format).value with
  | mk result d =>
      rw [hprocess] at h
      cases result with
      | error f => cases h
      | ok s =>
          cases h
          exact ⟨d, rfl⟩

/-- A text with a facet called `requests`, and with facets that are renamed. -/
def requestsText : String := "requests=u,v\nproject=CMIP6\nvariable[mon]=t"

/-- The same selection if `x` is excluded, on other lines. -/
def requestsTextApart : String := "requests = u v\r\n # x\nvariable [mon] = t\nx=1\nproject=CMIP6\n"

/-- The text form of both. -/
def requestsLayout : String :=
  "requests: \"u,v\"\nproject: \"CMIP6\"\nrequests:\n  table_id: \"mon\"\n    variable_id: \"t\"\n"

theorem query_eq_of_process_eq_requestsText :
    ∃ d d', ((start ⟨"a"⟩).process requestsText [] .text).value = (.ok requestsLayout, d) ∧
      ((start ⟨"b"⟩).process requestsTextApart ["x"] .text).value = (.ok requestsLayout, d') ∧
      d.query = d'.query := by
  obtain ⟨d, hd⟩ := exists_of_process
    (show ((start ⟨"a"⟩).process requestsText [] .text).value.1.toOption = some requestsLayout by
      decide +kernel)
  obtain ⟨d', hd'⟩ := exists_of_process
    (show ((start ⟨"b"⟩).process requestsTextApart ["x"] .text).value.1.toOption = some requestsLayout by
      decide +kernel)
  exact ⟨d, d', hd, hd', query_eq_of_process_eq hd hd'⟩

end Conversion

end FacetQuery

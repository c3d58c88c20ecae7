import FacetQuery.Json.Reader
import FacetQuery.Proofs.Json.Scanning
import FacetQuery.Query.Rendering

/-!
# `FacetQuery.Proofs.Json.RoundTrip` — what is written as JSON is read back

The reader keeps a stack of open containers, and a value takes it from `value` to `after` on the same stack,
whatever tokens follow (`readTokens_tokensOf`). With the tokens of the written text (`lexes_write`) every value
is read back from its lines (`parse?_pretty`). A query is rendered as such a value, and as its record gives each
field once, nothing of it is lost: `Query.parse?_render`.
-/

namespace FacetQuery

namespace Json

open Selection (AllIn Halts)

/-! ## Values -/

mutual

/-- **The tokens of a value are read as that value**, on any stack and in front of any tokens. -/
theorem readTokens_tokensOf (stack : List Frame) (closable : Bool) (j : Json) (ts : List Token) :
    readTokens stack (.value closable) (tokensOf j ++ ts) = readTokens stack (.after j) ts := by
  match j with
  | .null => rfl
  | .bool b => rfl
  | .integer negative m => rfl
  | .decimal d => rfl
  | .text s => rfl
  | .array [] => rfl
  | .array (v :: vs) =>
      have hfirst := readTokens_tokensOf (.array [] :: stack) true v
        (tokensOfItems vs ++ .closeArray :: ts)
      have hitems := readTokens_tokensOfItems stack [] v vs ts
      rw [tokensOf, List.append_assoc, List.append_assoc]
      exact hfirst.trans hitems
  | .object [] => rfl
  | .object ((k, v) :: ms) =>
      have hfirst := readTokens_tokensOf (.object [] k :: stack) false v
        (tokensOfMembers ms ++ .closeObject :: ts)
      have hmembers := readTokens_tokensOfMembers stack [] k v ms ts
      rw [tokensOf, List.append_assoc, List.append_assoc]
      exact hfirst.trans hmembers

/-- In an open array the items behind a value are read on its end. -/
theorem readTokens_tokensOfItems (stack : List Frame) (items : List Json) (v : Json) (vs : List Json)
    (ts : List Token) :
    readTokens (.array items :: stack) (.after v) (tokensOfItems vs ++ .closeArray :: ts) =
      readTokens stack (.after (.array (items.reverse ++ v :: vs))) ts := by
  match vs with
  | [] => rw [← List.reverse_cons]; rfl
  | w :: vs =>
      have hfirst := readTokens_tokensOf (.array (v :: items) :: stack) false w
        (tokensOfItems vs ++ .closeArray :: ts)
      have hitems := readTokens_tokensOfItems stack (v :: items) w vs ts
      rw [List.reverse_cons, List.append_assoc] at hitems
      rw [tokensOfItems, List.append_assoc]
      exact hfirst.trans hitems

/-- In an open object the members behind a value are read on its end. -/
theorem readTokens_tokensOfMembers (stack : List Frame) (members : List (Literal × Json)) (k : Literal)
    (v : Json) (ms : List (Literal × Json)) (ts : List Token) :
    readTokens (.object members k :: stack) (.after v) (tokensOfMembers ms ++ .closeObject :: ts) =
      readTokens stack (.after (.object (members.reverse ++ (k, v) :: ms))) ts := by
  match ms with
  | [] => rw [← List.reverse_cons]; rfl
  | (l, w) :: ms =>
      have hfirst := readTokens_tokensOf (.object ((k, v) :: members) l :: stack) false w
        (tokensOfMembers ms ++ .closeObject :: ts)
      have hmembers := readTokens_tokensOfMembers stack ((k, v) :: members) l w ms ts
      rw [List.reverse_cons, List.append_assoc] at hmembers
      rw [tokensOfMembers, List.append_assoc]
      exact hfirst.trans hmembers

end

/-- **A value is read back from its lines**, whatever blanks stand behind them. -/
theorem parse?_pretty (j : Json) {blanks : List Char} (hb : AllIn isSpace blanks) :
    parse? (j.pretty ++ String.ofList blanks) = some j := by
  have hend : Lexes blanks [] := by
    have hnil : Lexes [] [] := .done rfl
    rw [← List.append_nil blanks]
    exact hnil.blanks hb
  have hhalts : Halts continuesNumber blanks := fun c hc =>
    continuesNumber_of_isSpace (hb c (List.mem_of_head? hc))
  have hlexes : Lexes (write 0 j ++ blanks) (tokensOf j ++ []) := lexes_write 0 j hhalts hend
  have htext : (j.pretty ++ String.ofList blanks).toList = write 0 j ++ blanks := by
    simp [pretty]
  have hread := readTokens_tokensOf [] false j []
  rw [parse?, htext, hlexes.scan]
  exact hread

/-- The fields of an object with two members are their values. -/
theorem fields?_pair {field field' : String} (h : field ≠ field') (v v' : Json) :
    (Json.object [(some field, v), (some field', v')]).fields? [field, field'] =
      some [some v, some v'] := by
  simp [fields?, single, given, h, h.symm]

end Json

/-! ## Queries -/

/-- What is written item by item and read item by item is read back. -/
theorem mapM_map_eq_some {α β : Type} {write : α → β} {read : β → Option α}
    (h : ∀ a, read (write a) = some a) (as : List α) : (as.map write).mapM read = some as := by
  induction as with
  | nil => rfl
  | cons a as ih =>
      rw [List.map_cons, List.mapM_cons, h a, ih]
      rfl

theorem Facet.ofJson?_toJson (f : Facet) : Facet.ofJson? f.toJson = some f := by
  have hvalues : (f.values.map Json.ofString).mapM Json.asString? = some f.values :=
    mapM_map_eq_some Json.asString?_ofString f.values
  rw [Facet.ofJson?, Facet.toJson, Json.fields?_pair (by decide)]
  simp only [Option.bind_eq_bind, Option.bind_some, Json.asArray?, Json.asString?_ofString, hvalues]
  rfl

theorem Request.ofJson?_toJson (r : Request) : Request.ofJson? (.array (r.map Facet.toJson)) = some r :=
  mapM_map_eq_some Facet.ofJson?_toJson r

theorem Query.ofJson?_toJson (q : Query) : Query.ofJson? q.toJson = some q := by
  have hfacets : (q.facets.map Facet.toJson).mapM Facet.ofJson? = some q.facets :=
    mapM_map_eq_some Facet.ofJson?_toJson q.facets
  have hrequests : (q.requests.map fun r => Json.array (r.map Facet.toJson)).mapM Request.ofJson? =
      some q.requests := mapM_map_eq_some Request.ofJson?_toJson q.requests
  rw [Query.ofJson?, Query.toJson, Json.fields?_pair (by decide)]
  simp only [Option.bind_eq_bind, Option.bind_some, Json.asArray?, hfacets, hrequests]
  rfl

/-- **The JSON form loses nothing.** Every query that is not empty has a rendering as JSON, and it reads back
    into that query, whatever texts its names and values are and however many there are. -/
theorem Query.parse?_render {q : Query} (h : q ≠ .empty) :
    ∃ rendering, q.render .json = some rendering ∧ Query.parse? rendering = some q := by
  have hempty : q.isEmpty ≠ true := fun he => h (Query.isEmpty_eq_true.mp he)
  refine ⟨q.written .json, if_neg hempty, ?_⟩
  have hread : Json.parse? (q.toJson.pretty ++ "\n") = some q.toJson :=
    q.toJson.parse?_pretty (show Selection.AllIn Json.isSpace ['\n'] by simp [Selection.AllIn, Json.isSpace])
  rw [Query.parse?, Query.written, hread]
  exact q.ofJson?_toJson

/-- A query with characters that are escaped, empty texts, a facet without values and an empty request. -/
theorem Query.parse?_render_escapes :
    (⟨[⟨"a\"\\\n\x01é", ["", "\t\x7f", "𝄞"]⟩, ⟨"", []⟩], [[], [⟨"b", []⟩, ⟨"b", [","]⟩]]⟩ : Query) ≠ .empty ∧
      ∃ rendering, Query.render ⟨[⟨"a\"\\\n\x01é", ["", "\t\x7f", "𝄞"]⟩, ⟨"", []⟩],
          [[], [⟨"b", []⟩, ⟨"b", [","]⟩]]⟩ .json = some rendering ∧
        Query.parse? rendering = some ⟨[⟨"a\"\\\n\x01é", ["", "\t\x7f", "𝄞"]⟩, ⟨"", []⟩],
          [[], [⟨"b", []⟩, ⟨"b", [","]⟩]]⟩ :=
  ⟨by decide, Query.parse?_render (by decide)⟩

end FacetQuery

import FacetQuery.Json.Printer
import FacetQuery.Json.Token
import FacetQuery.Proofs.Selection.Reading

/-!
# `FacetQuery.Proofs.Json.Scanning` — a value on indented lines is cut into its tokens

The scanner counts fuel and gathers what it has read, so it is first tied to a relation that does neither:
`Lexes cs ts` says that the text `cs` consists of the tokens `ts`, with blanks in front of each. What is written
in front of a text adds its tokens in front of the tokens of that text; every piece of a value gets one such lemma,
and the whole value follows by recursion on it (`lexes_write`).

A number alone depends on what stands behind it: it must not go on there (`Ends`). Behind a value stands a comma,
a new line or nothing, so it never does.
-/

namespace FacetQuery.Json

open Selection (AllIn Halts halts_nil halts_cons)

/-! ## Strings -/

/-- The escape of a control character is four digits of its number. -/
theorem codeUnit?_hexDigit : ∀ n < 0x20, codeUnit? '0' '0' (hexDigit (n / 16)) (hexDigit (n % 16)) = some n := by
  decide

/-- Every character is read back from how it is written. -/
theorem scanPieces_escapeChar (c : Char) (done : List Piece) (r : List Char) :
    scanPieces done (escapeChar c ++ r) = scanPieces (.char c :: done) r := by
  unfold escapeChar
  split
  · next h => subst h; rfl
  split
  · next h => subst h; rfl
  split
  · next h => subst h; rfl
  split
  · next h => subst h; rfl
  split
  · next h => subst h; rfl
  split
  · next h => subst h; rfl
  split
  · next h => subst h; rfl
  split
  · next hcontrol =>
      have hunit := codeUnit?_hexDigit c.toNat hcontrol
      have hpiece : Piece.ofUnit c.toNat = .char c := by
        rw [Piece.ofUnit, if_neg (by omega), Char.ofNat_toNat]
      simp only [List.cons_append, List.nil_append, scanPieces, hunit, hpiece]
  · next _ hbackslash _ _ _ _ _ hcontrol =>
      simp [scanPieces, hbackslash, hcontrol]

/-- So is every text, up to the quote that ends it. -/
theorem scanPieces_flatMap (cs : List Char) (done : List Piece) (r : List Char) :
    scanPieces done (cs.flatMap escapeChar ++ '"' :: r) = some (done.reverse ++ cs.map .char, r) := by
  induction cs generalizing done with
  | nil => simp [scanPieces]
  | cons c cs ih =>
      rw [List.flatMap_cons, List.append_assoc, scanPieces_escapeChar, ih]
      simp

theorem joinPieces_map_char (cs done : List Char) :
    joinPieces done (cs.map .char) = some (String.ofList (done.reverse ++ cs)) := by
  induction cs generalizing done with
  | nil => simp [joinPieces]
  | cons c cs ih =>
      rw [List.map_cons, joinPieces, ih]
      simp

/-- A literal is read back, also one that stands for no text. -/
theorem scanToken_literalText (l : Literal) (r : List Char) :
    scanToken (literalText l ++ r) = some (.text l, r) := by
  cases l with
  | none => rfl
  | some s =>
      simp only [literalText, quoted, List.cons_append, List.append_assoc, List.nil_append, scanToken,
        scanPieces_flatMap, Option.map_some, List.reverse_nil, joinPieces_map_char, String.ofList_toList]

/-! ## Numbers -/

theorem natText_eq_toDigits (n : Nat) : natText n = Nat.toDigits 10 n := Nat.toList_repr

theorem allIn_natText (n : Nat) : AllIn Char.isDigit (natText n) := by
  intro c hc
  rw [natText_eq_toDigits] at hc
  exact Nat.isDigit_of_mem_toDigits (by decide) (by decide) hc

theorem natOfDigits_natText (n : Nat) : natOfDigits (natText n) = n := by
  have hsame : natOfDigits (natText n) = Nat.ofDigitChars 10 (natText n) 0 := by
    rw [Nat.ofDigitChars_eq_foldl]
    simp only [natOfDigits, digitValue, Nat.mul_comm 10]
  rw [hsame, natText_eq_toDigits, Nat.ofDigitChars_ten_toDigits]

/-- A number other than zero is not written with a zero in front. -/
theorem head?_natText {n : Nat} (hn : 0 < n) : (natText n).head? ≠ some '0' := by
  rw [natText_eq_toDigits]
  induction n using Nat.strongRecOn with
  | ind n ih =>
      by_cases hlt : n < 10
      · rw [Nat.toDigits_of_lt_base hlt, List.head?_cons]
        have hdigit : ∀ d < 10, 0 < d → some d.digitChar ≠ some '0' := by decide
        exact hdigit n hlt hn
      · rw [Nat.toDigits_of_base_le (by decide) (by omega),
          List.head?_append, Option.or_of_isSome (by simp [Nat.toDigits_ne_nil])]
        exact ih (n / 10) (by omega) (by omega)

/-- Hence the digits of a number are never refused for a leading zero. -/
theorem natText_ne_zero_cons (n : Nat) (c : Char) (cs : List Char) : natText n ≠ '0' :: c :: cs := by
  intro h
  cases n with
  | zero => exact nomatch (show ['0'] = '0' :: c :: cs from h)
  | succ n =>
      refine head?_natText n.succ_pos ?_
      rw [h]
      rfl

theorem natText_eq_cons (n : Nat) : ∃ d ds, natText n = d :: ds ∧ d.isDigit = true := by
  have hne : natText n ≠ [] := by
    rw [natText_eq_toDigits]
    exact Nat.toDigits_ne_nil
  obtain ⟨d, ds, hds⟩ := List.exists_cons_of_ne_nil hne
  refine ⟨d, ds, hds, allIn_natText n d ?_⟩
  rw [hds]
  exact List.mem_cons_self

/-- The digits of a number are scanned as one run. -/
theorem takeWhile_natText (n : Nat) {r : List Char} (h : Halts Char.isDigit r) :
    (natText n ++ r).takeWhile Char.isDigit = natText n := (allIn_natText n).takeWhile_append h

theorem dropWhile_natText (n : Nat) {r : List Char} (h : Halts Char.isDigit r) :
    (natText n ++ r).dropWhile Char.isDigit = r := by
  rw [(allIn_natText n).dropWhile_append, h.dropWhile_eq]

/-- With what a number goes on behind its digits. -/
def continuesNumber (c : Char) : Bool := c.isDigit || c == '.' || c == 'e' || c == 'E'

theorem continuesNumber_of_isSpace {c : Char} (h : isSpace c = true) : continuesNumber c = false := by
  simp only [isSpace, Bool.or_eq_true, beq_iff_eq] at h
  rcases h with ((rfl | rfl) | rfl) | rfl
  · rfl
  · rfl
  · rfl
  · rfl

theorem halts_isDigit {r : List Char} (h : Halts continuesNumber r) : Halts Char.isDigit r := by
  intro c hc
  have hcont := h c hc
  simp only [continuesNumber, Bool.or_eq_false_iff] at hcont
  exact hcont.1.1.1

/-- What is scanned behind the digits of an integer, whose text has no fraction. -/
theorem scanNumber_natText (negative : Bool) (n : Nat) {r : List Char} (hdigit : Halts Char.isDigit r)
    (hpoint : r.head? ≠ some '.') :
    scanNumber negative (natText n ++ r) =
      match r with
      | e :: r' =>
          if e = 'e' ∨ e = 'E' then
            (scanExponent r').map fun (x, r'') => (.decimal ⟨negative, n, x⟩, r'')
          else some (.integer negative n, r)
      | [] => some (.integer negative n, r) := by
  have hparts (x : Int) : Decimal.ofParts negative (natText n) [] x = ⟨negative, n, x⟩ := by
    simp [Decimal.ofParts, natOfDigits_natText]
  obtain ⟨d, ds, hds, -⟩ := natText_eq_cons n
  unfold scanNumber
  rw [takeWhile_natText n hdigit, dropWhile_natText n hdigit]
  split
  · next hnil => exact nomatch hds.symm.trans hnil
  · next hzero => exact absurd hzero (natText_ne_zero_cons n _ _)
  · cases r with
    | nil => simp [natOfDigits_natText]
    | cons e r' =>
        have he : e ≠ '.' := fun h => hpoint (by rw [h]; rfl)
        simp [he, natOfDigits_natText, hparts]

/-- An integer is read back, up to a text with which it does not go on. -/
theorem scanNumber_integer (negative : Bool) (n : Nat) {r : List Char} (h : Halts continuesNumber r) :
    scanNumber negative (natText n ++ r) = some (.integer negative n, r) := by
  have hpoint : r.head? ≠ some '.' := fun hr => Bool.noConfusion (h '.' hr)
  rw [scanNumber_natText negative n (halts_isDigit h) hpoint]
  cases r with
  | nil => rfl
  | cons e r =>
      have he := halts_cons.mp h
      simp only [continuesNumber, Bool.or_eq_false_iff, beq_eq_false_iff_ne] at he
      exact if_neg fun hor => hor.elim he.1.2 he.2

/-- An exponent is read back under its sign. -/
theorem scanExponent_signText (negative : Bool) (n : Nat) {r : List Char} (h : Halts continuesNumber r) :
    scanExponent (signText negative ++ natText n ++ r) = some (if negative then -(n : Int) else n, r) := by
  have htake := takeWhile_natText n (halts_isDigit h)
  have hdrop := dropWhile_natText n (halts_isDigit h)
  obtain ⟨d, ds, hds, hd⟩ := natText_eq_cons n
  have hvalue : natOfDigits (d :: ds) = n := by rw [← hds, natOfDigits_natText]
  rw [hds, List.cons_append] at htake hdrop
  rw [hds]
  cases negative with
  | true => simp [signText, scanExponent, htake, hdrop, hvalue]
  | false =>
      have hplus : d ≠ '+' := by rintro rfl; exact nomatch hd
      have hminus : d ≠ '-' := by rintro rfl; exact nomatch hd
      simp [signText, scanExponent, hplus, hminus, htake, hdrop, hvalue]

/-- A number with an exponent is read back. -/
theorem scanNumber_decimal (d : Decimal) {r : List Char} (h : Halts continuesNumber r) :
    scanNumber d.negative (natText d.mantissa ++
      'e' :: (signText (d.exponent < 0) ++ natText d.exponent.natAbs ++ r)) = some (.decimal d, r) := by
  have hexponent : (if decide (d.exponent < 0) then -(d.exponent.natAbs : Int) else d.exponent.natAbs) =
      d.exponent := by
    by_cases hneg : d.exponent < 0
    · rw [if_pos (decide_eq_true hneg)]
      omega
    · rw [if_neg (by simp [hneg])]
      omega
  rw [scanNumber_natText d.negative d.mantissa (halts_cons.mpr rfl) (by simp)]
  simp only [true_or, if_true, scanExponent_signText _ _ h, hexponent, Option.map_some]

theorem scanToken_digit {d : Char} (hd : d.isDigit = true) (cs : List Char) :
    scanToken (d :: cs) = scanNumber false (d :: cs) := by
  have hne (c : Char) (hc : c.isDigit = false) : d ≠ c := by
    rintro rfl
    exact Bool.false_ne_true (hc.symm.trans hd)
  simp [scanToken, hne]

/-- A number is scanned behind its sign. -/
theorem scanToken_number (negative : Bool) (n : Nat) (r : List Char) :
    scanToken (signText negative ++ natText n ++ r) = scanNumber negative (natText n ++ r) := by
  cases negative with
  | true => rfl
  | false =>
      obtain ⟨d, ds, hds, hd⟩ := natText_eq_cons n
      rw [hds]
      exact scanToken_digit hd (ds ++ r)

/-! ## Texts and their tokens -/

/-- The text consists of these tokens, with blanks between them. -/
inductive Lexes : List Char → List Token → Prop
  | done {cs} (h : cs.dropWhile isSpace = []) : Lexes cs []
  | token {cs t r ts} (h : scanToken (cs.dropWhile isSpace) = some (t, r)) (hlt : r.length < cs.length)
      (hr : Lexes r ts) : Lexes cs (t :: ts)

namespace Lexes

variable {cs : List Char} {ts : List Token}

/-- Fuel for every character is enough. -/
theorem scanTokens (h : Lexes cs ts) {done : List Token} {fuel : Nat} (hfuel : cs.length < fuel) :
    scanTokens done fuel cs = some (done.reverse ++ ts) := by
  induction h generalizing done fuel with
  | @done cs hdrop =>
      obtain ⟨fuel, rfl⟩ := Nat.exists_eq_add_one_of_ne_zero (Nat.ne_zero_of_lt hfuel)
      rw [Json.scanTokens, hdrop, List.append_nil]
  | @token cs t r ts hscan hlt _ ih =>
      obtain ⟨fuel, rfl⟩ := Nat.exists_eq_add_one_of_ne_zero (Nat.ne_zero_of_lt hfuel)
      rw [Json.scanTokens]
      cases hdrop : cs.dropWhile isSpace with
      | nil =>
          rw [hdrop] at hscan
          exact nomatch hscan
      | cons c rest =>
          rw [hdrop] at hscan
          simp only [hscan]
          rw [ih (by omega), List.reverse_cons, List.append_assoc]
          rfl

theorem scan (h : Lexes cs ts) : Token.scan cs = some ts := h.scanTokens (Nat.lt_succ_self _)

/-- Blanks in front add nothing. -/
theorem blanks (h : Lexes cs ts) {bs : List Char} (hb : AllIn isSpace bs) : Lexes (bs ++ cs) ts := by
  cases h with
  | done hdrop => exact .done (by rw [hb.dropWhile_append, hdrop])
  | token hscan hlt hr =>
      refine .token (by rw [hb.dropWhile_append, hscan]) ?_ hr
      rw [List.length_append]
      omega

theorem space (h : Lexes cs ts) {c : Char} (hc : isSpace c = true) : Lexes (c :: cs) ts := by
  refine h.blanks (show AllIn isSpace [c] from fun d hd => ?_)
  rw [List.mem_singleton.mp hd]
  exact hc

theorem newLine (h : Lexes cs ts) (depth : Nat) : Lexes (newLine depth ++ cs) ts := by
  refine h.blanks fun c hc => ?_
  rcases List.mem_cons.mp hc with rfl | hc
  · rfl
  · rw [(List.mem_replicate.mp hc).2]
    rfl

/-- A piece in front that is scanned as one token adds this token. -/
theorem piece (h : Lexes cs ts) {text : List Char} {t : Token}
    (hhead : ∃ c rest, text = c :: rest ∧ isSpace c = false)
    (hscan : scanToken (text ++ cs) = some (t, cs)) : Lexes (text ++ cs) (t :: ts) := by
  obtain ⟨c, rest, rfl, hc⟩ := hhead
  refine .token ?_ ?_ h
  · rw [List.cons_append, List.dropWhile_cons_of_neg (by simp [hc])]
    exact hscan
  · rw [List.cons_append, List.length_cons, List.length_append]
    omega

theorem mark (h : Lexes cs ts) {c : Char} {t : Token} (hc : isSpace c = false)
    (hscan : scanToken (c :: cs) = some (t, cs)) : Lexes (c :: cs) (t :: ts) :=
  h.piece ⟨c, [], rfl, hc⟩ hscan

theorem literal (h : Lexes cs ts) (l : Literal) : Lexes (literalText l ++ cs) (.text l :: ts) := by
  refine h.piece ?_ (scanToken_literalText l cs)
  cases l with
  | none => exact ⟨_, _, rfl, rfl⟩
  | some s => exact ⟨_, _, rfl, rfl⟩

/-- A number in front adds its token if it is scanned in front of this text, whatever stands behind its first
    digits. -/
theorem number (h : Lexes cs ts) {negative : Bool} {n : Nat} (tail : List Char) {t : Token}
    (hscan : scanNumber negative (natText n ++ (tail ++ cs)) = some (t, cs)) :
    Lexes (signText negative ++ natText n ++ tail ++ cs) (t :: ts) := by
  refine h.piece ?_ (by rw [List.append_assoc _ tail, scanToken_number, hscan])
  cases negative with
  | true => exact ⟨_, _, rfl, rfl⟩
  | false =>
      obtain ⟨d, ds, hds, hd⟩ := natText_eq_cons n
      refine ⟨d, ds ++ tail, by rw [hds]; rfl, ?_⟩
      rw [← Bool.not_eq_true]
      intro hspace
      have hcont := continuesNumber_of_isSpace hspace
      rw [continuesNumber, hd] at hcont
      exact nomatch hcont

end Lexes

/-! ## The tokens of a value -/

mutual

/-- The tokens that a value is written with. -/
def tokensOf : Json → List Token
  | .null => [.null]
  | .bool b => [.bool b]
  | .integer negative m => [.integer negative m]
  | .decimal d => [.decimal d]
  | .text s => [.text s]
  | .array [] => [.openArray, .closeArray]
  | .array (v :: vs) => .openArray :: tokensOf v ++ tokensOfItems vs ++ [.closeArray]
  | .object [] => [.openObject, .closeObject]
  | .object ((k, v) :: ms) =>
      .openObject :: .text k :: .colon :: tokensOf v ++ tokensOfMembers ms ++ [.closeObject]

/-- The tokens of the items of an array after its first. -/
def tokensOfItems : List Json → List Token
  | [] => []
  | v :: vs => .comma :: tokensOf v ++ tokensOfItems vs

/-- The tokens of the members of an object after its first. -/
def tokensOfMembers : List (Literal × Json) → List Token
  | [] => []
  | (k, v) :: ms => .comma :: .text k :: .colon :: tokensOf v ++ tokensOfMembers ms

end

theorem halts_newLine (depth : Nat) (r : List Char) : Halts continuesNumber (newLine depth ++ r) :=
  halts_cons.mpr rfl

theorem halts_writeItems (depth : Nat) (vs : List Json) {r : List Char} (h : Halts continuesNumber r) :
    Halts continuesNumber (writeItems depth vs ++ r) := by
  cases vs with
  | nil => rw [writeItems]; exact h
  | cons v vs => rw [writeItems]; exact halts_cons.mpr rfl

theorem halts_writeMembers (depth : Nat) (ms : List (Literal × Json)) {r : List Char}
    (h : Halts continuesNumber r) : Halts continuesNumber (writeMembers depth ms ++ r) := by
  cases ms with
  | nil => rw [writeMembers]; exact h
  | cons m ms => rw [writeMembers]; exact halts_cons.mpr rfl

mutual

/-- **A value that is written in front of a text adds its tokens**, if no number goes on with that text. -/
theorem lexes_write (depth : Nat) (j : Json) {r : List Char} {ts : List Token}
    (hr : Halts continuesNumber r) (h : Lexes r ts) : Lexes (write depth j ++ r) (tokensOf j ++ ts) := by
  match j with
  | .null => exact h.piece ⟨_, _, rfl, rfl⟩ rfl
  | .bool true => exact h.piece ⟨_, _, rfl, rfl⟩ rfl
  | .bool false => exact h.piece ⟨_, _, rfl, rfl⟩ rfl
  | .integer negative m =>
      have hnumber := h.number [] (scanNumber_integer negative m hr)
      rwa [List.append_nil] at hnumber
  | .decimal d =>
      have hnumber := h.number ('e' :: (signText (d.exponent < 0) ++ natText d.exponent.natAbs))
        (scanNumber_decimal d hr)
      rwa [← List.cons_append, ← List.append_assoc] at hnumber
  | .text s => exact h.literal s
  | .array [] => exact (h.mark rfl rfl).mark rfl rfl
  | .array (v :: vs) =>
      have hclose : Lexes (']' :: r) (.closeArray :: ts) := h.mark rfl rfl
      have hitems := lexes_writeItems (depth + 1) vs (halts_newLine _ _) (hclose.newLine depth)
      have hfirst := lexes_write (depth + 1) v (halts_writeItems _ _ (halts_newLine _ _)) hitems
      have hopen := (hfirst.newLine (depth + 1)).mark (c := '[') (t := .openArray) rfl rfl
      simpa [write, tokensOf] using hopen
  | .object [] => exact (h.mark rfl rfl).mark rfl rfl
  | .object ((k, v) :: ms) =>
      have hclose : Lexes ('\x7d' :: r) (.closeObject :: ts) := h.mark rfl rfl
      have hmembers := lexes_writeMembers (depth + 1) ms (halts_newLine _ _) (hclose.newLine depth)
      have hfirst := lexes_write (depth + 1) v (halts_writeMembers _ _ (halts_newLine _ _)) hmembers
      have hcolon := (hfirst.space (c := ' ') rfl).mark (c := ':') (t := .colon) rfl rfl
      have hopen := ((hcolon.literal k).newLine (depth + 1)).mark (c := '\x7b') (t := .openObject) rfl rfl
      simpa [write, tokensOf] using hopen

theorem lexes_writeItems (depth : Nat) (vs : List Json) {r : List Char} {ts : List Token}
    (hr : Halts continuesNumber r) (h : Lexes r ts) :
    Lexes (writeItems depth vs ++ r) (tokensOfItems vs ++ ts) := by
  match vs with
  | [] => exact h
  | v :: vs =>
      have hitems := lexes_writeItems depth vs hr h
      have hfirst := lexes_write depth v (halts_writeItems _ _ hr) hitems
      have hcomma := (hfirst.newLine depth).mark (c := ',') (t := .comma) rfl rfl
      simpa [writeItems, tokensOfItems] using hcomma

theorem lexes_writeMembers (depth : Nat) (ms : List (Literal × Json)) {r : List Char} {ts : List Token}
    (hr : Halts continuesNumber r) (h : Lexes r ts) :
    Lexes (writeMembers depth ms ++ r) (tokensOfMembers ms ++ ts) := by
  match ms with
  | [] => exact h
  | (k, v) :: ms =>
      have hmembers := lexes_writeMembers depth ms hr h
      have hfirst := lexes_write depth v (halts_writeMembers _ _ hr) hmembers
      have hcolon := (hfirst.space (c := ' ') rfl).mark (c := ':') (t := .colon) rfl rfl
      have hcomma := ((hcolon.literal k).newLine depth).mark (c := ',') (t := .comma) rfl rfl
      simpa [writeMembers, tokensOfMembers] using hcomma

end

end FacetQuery.Json

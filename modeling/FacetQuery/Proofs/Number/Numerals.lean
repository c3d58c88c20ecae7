import FacetQuery.Number.Binary64
import FacetQuery.Proofs.Json.Scanning

/-!
# `FacetQuery.Proofs.Number.Numerals` — which words are read as numbers

Among the texts without points and plus signs, `Binary64.Denotes` says which are numbers and what they
denote: digits, digits with an exponent, and the words for what is infinite or no number, each perhaps
behind a minus sign. Reading such a text succeeds on these and on no other (`ofText?_eq_some_iff`).

A number that is written out again need not get the text back that it was read from. An integer does iff no
zero stands in front (`toString_signedValue_eq_iff`); a number is never written with an exponent
(`shown_ne_scientific`).

## Contents
- `IsDigits`, `signed`, `signedValue`: integers as they are written.
- `Binary64.Denotes` and `Binary64.ofText?_eq_some_iff`.
- The text of an integer and the characters in the text of a number.
-/

namespace FacetQuery

open Selection (AllIn Halts)

/-! ## Digits and signs -/

/-- At least one character, and digits only. -/
def IsDigits (ds : List Char) : Prop := ds ≠ [] ∧ AllIn Char.isDigit ds

/-- A text behind a minus sign, or by itself. -/
def signed (negative : Bool) (cs : List Char) : List Char := if negative then '-' :: cs else cs

/-- The number under a minus sign, or by itself. -/
def signedValue (negative : Bool) (n : Nat) : Int := if negative then -n else n

section Integers

variable {negative : Bool} {cs ds : List Char}

theorem digits?_eq_some_iff {n : Nat} : digits? cs = some n ↔ IsDigits cs ∧ natOfDigits cs = n := by
  rw [digits?, IsDigits, AllIn]
  split
  · next h => simpa using fun _ => ⟨h.1, by simpa using h.2⟩
  · next h =>
      simp only [reduceCtorEq, false_iff, not_and]
      exact fun hdigits => absurd ⟨hdigits.1, by simpa using hdigits.2⟩ h

theorem IsDigits.digits? (h : IsDigits ds) : digits? ds = some (natOfDigits ds) :=
  digits?_eq_some_iff.mpr ⟨h, rfl⟩

theorem IsDigits.exists_cons (h : IsDigits ds) : ∃ d ds', ds = d :: ds' ∧ d.isDigit = true := by
  obtain ⟨d, ds', rfl⟩ := List.exists_cons_of_ne_nil h.1
  exact ⟨d, ds', rfl, h.2 d List.mem_cons_self⟩

theorem toLower_of_isDigit {d : Char} (h : d.isDigit = true) : d.toLower = d := by
  have hall : ∀ n < 58, 48 ≤ n → (Char.ofNat n).toLower = Char.ofNat n := by decide
  have hdigit := Char.isDigit_iff_toNat.mp h
  have hd := hall d.toNat (Nat.lt_succ_of_le hdigit.2) hdigit.1
  rwa [Char.ofNat_toNat] at hd

theorem IsDigits.not_mem {c : Char} (h : IsDigits ds) (hc : c.isDigit = false) : c ∉ ds :=
  fun hmem => Bool.false_ne_true (hc.symm.trans (h.2 c hmem))

theorem mem_signed {c : Char} : c ∈ signed negative cs ↔ (negative = true ∧ c = '-') ∨ c ∈ cs := by
  cases negative <;> simp [signed]

theorem signed_inj (h : signed negative cs = signed negative ds) : cs = ds := by
  cases negative with
  | false => exact h
  | true => exact (List.cons.inj h).2

/-- Digits behind a minus sign or by themselves write an integer. -/
theorem integer?_signed (h : IsDigits ds) :
    integer? (signed negative ds) = some (signedValue negative (natOfDigits ds)) := by
  cases negative with
  | true => simp [signed, signedValue, integer?, h.digits?]
  | false =>
      obtain ⟨d, ds', rfl, hd⟩ := h.exists_cons
      rw [signed, if_neg Bool.false_ne_true, integer?, h.digits?]
      · rfl
      · rintro cs ⟨⟩
        exact absurd hd (by decide)
      · rintro cs ⟨⟩
        exact absurd hd (by decide)

/-- A text without a plus sign writes an integer in no other way. -/
theorem exists_of_integer? {i : Int} (hplus : '+' ∉ cs) (h : integer? cs = some i) :
    ∃ negative ds, IsDigits ds ∧ cs = signed negative ds := by
  unfold integer? at h
  split at h
  · next ds =>
      cases hds : digits? ds with
      | none => simp [hds] at h
      | some n => exact ⟨true, ds, (digits?_eq_some_iff.mp hds).1, rfl⟩
  · exact absurd List.mem_cons_self hplus
  · obtain ⟨n, hn, rfl⟩ := Option.map_eq_some_iff.mp h
    exact ⟨false, cs, (digits?_eq_some_iff.mp hn).1, rfl⟩

end Integers

/-! ## Decimal numbers -/

namespace Decimal

variable {negative : Bool} {cs ds : List Char}

/-- The character stands in front of an exponent. -/
def IsMark (c : Char) : Prop := c = 'e' ∨ c = 'E'

theorem unsigned?_digits (h : IsDigits ds) :
    unsigned? negative ds = some ⟨negative, natOfDigits ds, 0⟩ := by
  have htake : ds.takeWhile Char.isDigit = ds := by
    have hall : (ds ++ []).takeWhile Char.isDigit = ds := h.2.takeWhile_append (Selection.halts_nil _)
    rwa [List.append_nil] at hall
  have hdrop : ds.dropWhile Char.isDigit = [] := by simpa using h.2.dropWhile_append []
  simp [unsigned?, htake, hdrop, h.1, exponent?, ofParts]

/-- A text without a point is read as its digits in front and what follows them. -/
theorem unsigned?_of_noPoint (hpoint : '.' ∉ cs) : unsigned? negative cs =
    if cs.takeWhile Char.isDigit = [] then none
    else (exponent? (cs.dropWhile Char.isDigit)).map
      (ofParts negative (cs.takeWhile Char.isDigit) []) := by
  unfold unsigned?
  simp only
  split
  · next r hr =>
      have hmem : '.' ∈ cs := (List.dropWhile_sublist _).mem (hr ▸ List.mem_cons_self)
      exact absurd hmem hpoint
  · rw [List.append_nil]

theorem unsigned?_scientific {mark : Char} {power : List Char} {i : Int} (h : IsDigits ds)
    (hmark : IsMark mark) (hpoint : '.' ∉ power) (hpower : integer? power = some i) :
    unsigned? negative (ds ++ mark :: power) = some ⟨negative, natOfDigits ds, i⟩ := by
  have hhalts : Halts Char.isDigit (mark :: power) := by
    rcases hmark with rfl | rfl <;> exact Selection.halts_cons.mpr (by decide)
  have hnone : '.' ∉ ds ++ mark :: power := by
    intro hmem
    rcases List.mem_append.mp hmem with hmem | hmem
    · exact absurd (h.2 _ hmem) (by decide)
    · rcases List.mem_cons.mp hmem with heq | hmem
      · rcases hmark with rfl | rfl <;> exact absurd heq (by decide)
      · exact hpoint hmem
  rw [unsigned?_of_noPoint hnone, h.2.takeWhile_append hhalts, h.2.dropWhile_append,
    hhalts.dropWhile_eq, if_neg h.1, exponent?, if_pos (show mark = 'e' ∨ mark = 'E' from hmark), hpower]
  simp [ofParts]

/-- A text without a point is a number in no other ways. -/
theorem exists_of_unsigned? {d : Decimal} (hpoint : '.' ∉ cs)
    (h : unsigned? negative cs = some d) :
    IsDigits cs ∨ ∃ ds mark power i, IsDigits ds ∧ IsMark mark ∧ integer? power = some i ∧
      cs = ds ++ mark :: power := by
  rw [unsigned?_of_noPoint hpoint] at h
  split at h
  · exact nomatch h
  · next hne =>
      have hdigits : IsDigits (cs.takeWhile Char.isDigit) :=
        ⟨hne, Selection.allIn_takeWhile _ _⟩
      have hcut := List.takeWhile_append_dropWhile (p := Char.isDigit) (l := cs)
      obtain ⟨i, hi, -⟩ := Option.map_eq_some_iff.mp h
      unfold exponent? at hi
      split at hi
      · next hrest =>
          rw [hrest, List.append_nil] at hcut
          exact .inl (hcut ▸ hdigits)
      · next mark power hrest =>
          split at hi
          · next hmark =>
              exact .inr ⟨_, mark, power, i, hdigits, hmark, hi, by rw [← hrest, hcut]⟩
          · exact nomatch hi

end Decimal

/-! ## Numbers -/

namespace Binary64

/-- The words for what is infinite. -/
def IsInfinity (word : List Char) : Prop :=
  word.map Char.toLower = "inf".toList ∨ word.map Char.toLower = "infinity".toList

/-- The word for what is no number. -/
def IsNan (word : List Char) : Prop := word.map Char.toLower = "nan".toList

/-- How numbers are written without points and plus signs. -/
inductive Denotes : List Char → Binary64 → Prop
  | digits {negative ds} (h : IsDigits ds) :
      Denotes (signed negative ds) (ofDecimal ⟨negative, natOfDigits ds, 0⟩)
  | scientific {negative ds mark small power} (h : IsDigits ds) (hmark : Decimal.IsMark mark)
      (hpower : IsDigits power) :
      Denotes (signed negative (ds ++ mark :: signed small power))
        (ofDecimal ⟨negative, natOfDigits ds, signedValue small (natOfDigits power)⟩)
  | infinite {negative word} (h : IsInfinity word) :
      Denotes (signed negative word) (.infinite negative)
  | nan {negative word} (h : IsNan word) : Denotes (signed negative word) .nan

/-- The value that a text writes behind its sign. -/
def ofBody? (negative : Bool) (body : List Char) : Option Binary64 :=
  let word := String.ofList (body.map Char.toLower)
  if word = "inf" ∨ word = "infinity" then some (infinite negative)
  else if word = "nan" then some nan
  else (Decimal.unsigned? negative body).map ofDecimal

theorem ofText?_signed {negative : Bool} {body : List Char}
    (h : ∀ c ∈ body.head?, c ≠ '-' ∧ c ≠ '+') : ofText? (signed negative body) = ofBody? negative body := by
  cases negative with
  | true => rfl
  | false =>
      cases body with
      | nil => rfl
      | cons c cs =>
          obtain ⟨hminus, hplus⟩ := h c rfl
          rw [signed, if_neg Bool.false_ne_true, ofText?, ofBody?]
          · rintro r ⟨⟩
            exact hminus rfl
          · rintro r ⟨⟩
            exact hplus rfl

/-- A text is read behind its sign. -/
theorem exists_ofBody? {cs : List Char} (hplus : '+' ∉ cs) :
    ∃ negative body, cs = signed negative body ∧ ofText? cs = ofBody? negative body := by
  by_cases hminus : cs.head? = some '-'
  · obtain ⟨body, rfl⟩ := List.head?_eq_some_iff.mp hminus
    exact ⟨true, body, rfl, rfl⟩
  · have hsign : ∀ c ∈ cs.head?, c ≠ '-' ∧ c ≠ '+' := by
      intro c hc
      refine ⟨?_, ?_⟩
      · rintro rfl
        exact hminus hc
      · rintro rfl
        exact hplus (List.mem_of_mem_head? hc)
    exact ⟨false, cs, rfl, @ofText?_signed false cs hsign⟩

theorem head?_special {word : List Char} (h : IsInfinity word ∨ IsNan word) :
    ∃ c ∈ word.head?, c.toLower = 'i' ∨ c.toLower = 'n' := by
  cases word with
  | nil => rcases h with (h | h) | h <;> exact nomatch h
  | cons c word =>
      refine ⟨c, rfl, ?_⟩
      rcases h with (h | h) | h
      · exact .inl (List.cons.inj h).1
      · exact .inl (List.cons.inj h).1
      · exact .inr (List.cons.inj h).1

theorem head?_signed {negative : Bool} {cs : List Char} (h : cs ≠ []) :
    ∃ c ∈ (signed negative cs).head?, c = '-' ∨ c ∈ cs.head? := by
  obtain ⟨c, cs, rfl⟩ := List.exists_cons_of_ne_nil h
  cases negative with
  | true => exact ⟨'-', rfl, .inl rfl⟩
  | false => exact ⟨c, rfl, .inr rfl⟩

/-- With what a number may begin. -/
theorem Denotes.begins {cs : List Char} {x : Binary64} (h : Denotes cs x) :
    ∃ c ∈ cs.head?, c = '-' ∨ c.isDigit = true ∨ c.toLower = 'i' ∨ c.toLower = 'n' := by
  have hdigits {negative : Bool} {ds rest : List Char} (hds : IsDigits ds) :
      ∃ c ∈ (signed negative (ds ++ rest)).head?,
        c = '-' ∨ c.isDigit = true ∨ c.toLower = 'i' ∨ c.toLower = 'n' := by
    obtain ⟨d, ds', rfl, hd⟩ := hds.exists_cons
    obtain ⟨c, hc, hsign | hfirst⟩ := head?_signed (List.cons_ne_nil d (ds' ++ rest))
    · exact ⟨c, hc, .inl hsign⟩
    · cases hfirst
      exact ⟨d, hc, .inr (.inl hd)⟩
  have hspecial {negative : Bool} {word : List Char} (hword : IsInfinity word ∨ IsNan word) :
      ∃ c ∈ (signed negative word).head?,
        c = '-' ∨ c.isDigit = true ∨ c.toLower = 'i' ∨ c.toLower = 'n' := by
    obtain ⟨d, hd, hlower⟩ := head?_special hword
    obtain ⟨c, hc, hsign | hfirst⟩ := head?_signed (List.ne_nil_of_mem (List.mem_of_mem_head? hd))
    · exact ⟨c, hc, .inl hsign⟩
    · cases Option.some_inj.mp (hd.symm.trans hfirst)
      exact ⟨d, hc, .inr (.inr hlower)⟩
  cases h with
  | @digits negative ds h => simpa using @hdigits negative ds [] h
  | scientific h => exact hdigits h
  | infinite h => exact hspecial (.inl h)
  | nan h => exact hspecial (.inr h)

theorem not_special_of_isDigit {d : Char} {cs : List Char} (h : d.isDigit = true) :
    ¬ (IsInfinity (d :: cs) ∨ IsNan (d :: cs)) := by
  intro hspecial
  obtain ⟨c, hc, hlower⟩ := head?_special hspecial
  cases hc
  rw [toLower_of_isDigit h] at hlower
  rcases hlower with rfl | rfl <;> exact absurd h (by decide)

theorem not_sign_of_isDigit {d : Char} {cs : List Char} (h : d.isDigit = true) :
    ∀ c ∈ (d :: cs).head?, c ≠ '-' ∧ c ≠ '+' := by
  rintro c ⟨⟩
  constructor <;>
    · rintro rfl
      exact absurd h (by decide)

theorem not_sign_of_special {word : List Char} (h : IsInfinity word ∨ IsNan word) :
    ∀ c ∈ word.head?, c ≠ '-' ∧ c ≠ '+' := by
  obtain ⟨d, hd, hlower⟩ := head?_special h
  intro c hc
  cases Option.some_inj.mp (hd.symm.trans hc)
  constructor <;>
    · rintro rfl
      exact absurd hlower (by decide)

theorem ofBody?_of_not_special {negative : Bool} {body : List Char}
    (h : ¬ (IsInfinity body ∨ IsNan body)) :
    ofBody? negative body = (Decimal.unsigned? negative body).map ofDecimal := by
  have hword {text : String} (heq : String.ofList (body.map Char.toLower) = text) :
      body.map Char.toLower = text.toList := by rw [← heq, String.toList_ofList]
  rw [not_or] at h
  rw [ofBody?, if_neg, if_neg]
  · exact fun heq => h.2 (hword heq)
  · rintro (heq | heq)
    · exact h.1 (.inl (hword heq))
    · exact h.1 (.inr (hword heq))

theorem ofBody?_of_special {negative : Bool} {body : List Char} {x : Binary64}
    (h : IsInfinity body ∧ x = .infinite negative ∨ IsNan body ∧ x = .nan) :
    ofBody? negative body = some x := by
  rcases h with ⟨h | h, rfl⟩ | ⟨h, rfl⟩
  · simp [ofBody?, h]
  · simp [ofBody?, h]
  · rw [IsNan] at h
    simp [ofBody?, h]

/-- **Numbers without points and plus signs** are read exactly as they are written. -/
theorem ofText?_eq_some_iff {cs : List Char} {x : Binary64} (hpoint : '.' ∉ cs) (hplus : '+' ∉ cs) :
    ofText? cs = some x ↔ Denotes cs x := by
  constructor
  · intro h
    obtain ⟨negative, body, rfl, hbody⟩ := exists_ofBody? hplus
    have hmem {c : Char} (hc : c ∈ body) : c ∈ signed negative body := mem_signed.mpr (.inr hc)
    rw [hbody] at h
    by_cases hspecial : IsInfinity body ∨ IsNan body
    · rcases hspecial with hinf | hnan
      · rw [ofBody?_of_special (.inl ⟨hinf, rfl⟩)] at h
        cases h
        exact .infinite hinf
      · rw [ofBody?_of_special (.inr ⟨hnan, rfl⟩)] at h
        cases h
        exact .nan hnan
    · rw [ofBody?_of_not_special hspecial] at h
      obtain ⟨d, hd, rfl⟩ := Option.map_eq_some_iff.mp h
      rcases Decimal.exists_of_unsigned? (fun hc => hpoint (hmem hc)) hd with
        hdigits | ⟨ds, mark, power, i, hds, hmark, hi, rfl⟩
      · rw [Decimal.unsigned?_digits hdigits] at hd
        cases hd
        exact .digits hdigits
      · have hpower {c : Char} (hc : c ∈ power) : c ∈ ds ++ mark :: power :=
          List.mem_append_right _ (List.mem_cons_of_mem _ hc)
        obtain ⟨small, es, hes, rfl⟩ :=
          exists_of_integer? (fun hc => hplus (hmem (hpower hc))) hi
        rw [Decimal.unsigned?_scientific hds hmark (fun hc => hpoint (hmem (hpower hc)))
          (integer?_signed hes)] at hd
        cases hd
        exact .scientific hds hmark hes
  · intro h
    cases h with
    | @digits negative ds h =>
        obtain ⟨d, ds', rfl, hd⟩ := h.exists_cons
        rw [ofText?_signed (not_sign_of_isDigit hd),
          ofBody?_of_not_special (not_special_of_isDigit hd), Decimal.unsigned?_digits h]
        rfl
    | @scientific negative ds mark small power h hmark hpower =>
        obtain ⟨d, ds', rfl, hd⟩ := h.exists_cons
        have hnone : '.' ∉ signed small power := by
          simp [mem_signed, hpower.not_mem]
        rw [List.cons_append, ofText?_signed (not_sign_of_isDigit hd),
          ofBody?_of_not_special (not_special_of_isDigit hd), ← List.cons_append,
          Decimal.unsigned?_scientific h hmark hnone (integer?_signed hpower)]
        rfl
    | @infinite negative word h =>
        rw [ofText?_signed (not_sign_of_special (.inl h))]
        exact ofBody?_of_special (.inl ⟨h, rfl⟩)
    | @nan negative word h =>
        rw [ofText?_signed (not_sign_of_special (.inr h))]
        exact ofBody?_of_special (.inr ⟨h, rfl⟩)

/-! ## The text of a number -/

/-- The characters of a number that is written out. -/
def isShownChar (c : Char) : Bool := c.isDigit || c == '-' || c == '.'

theorem isShownChar_of_isDigit {c : Char} (h : c.isDigit = true) : isShownChar c = true := by
  simp [isShownChar, h]

theorem allIn_positional (digits : Nat) (t : Int) : AllIn isShownChar (positional digits t) := by
  have hdigits : AllIn isShownChar (Nat.toDigits 10 digits) := fun c hc =>
    isShownChar_of_isDigit (Nat.isDigit_of_mem_toDigits (by decide) (by decide) hc)
  have hzeros (n : Nat) : AllIn isShownChar (List.replicate n '0') := by
    intro c hc
    rw [List.eq_of_mem_replicate hc]
    decide
  unfold positional
  simp only
  split
  · exact hdigits.append (hzeros _)
  · have hpadded := (hzeros (t.natAbs + 1 - (Nat.toDigits 10 digits).length)).append hdigits
    have hwhole (n : Nat) := fun c hc => hpadded c (List.mem_of_mem_take (i := n) hc)
    split
    · exact hwhole _
    · refine Selection.AllIn.append (hwhole _) fun c hc => ?_
      rcases List.mem_cons.mp hc with rfl | hc
      · decide
      · have hfraction := (List.dropWhile_sublist _).mem (List.mem_reverse.mp hc)
        exact hpadded c (List.mem_of_mem_drop (List.mem_reverse.mp hfraction))

theorem allIn_shown_finite (negative : Bool) (m : Nat) (e : Int) :
    AllIn isShownChar (finite negative m e).shown.toList := by
  have hsign : AllIn isShownChar (if negative then ['-'] else []) := by
    cases negative <;> simp [AllIn, isShownChar]
  rw [shown]
  simp only
  split
  · rw [String.toList_ofList]
    exact hsign.append (by simp [AllIn, isShownChar])
  · rw [String.toList_ofList]
    exact hsign.append (allIn_positional _ _)

/-- No number is written with an exponent. -/
theorem shown_ne_scientific {negative : Bool} {ds rest : List Char} {mark : Char} (h : IsDigits ds)
    (hmark : Decimal.IsMark mark) (x : Binary64) :
    x.shown.toList ≠ signed negative (ds ++ mark :: rest) := by
  intro heq
  obtain ⟨d, ds', rfl, hd⟩ := h.exists_cons
  cases x with
  | nan =>
      -- the text begins with a digit or a minus sign
      cases negative with
      | true => exact absurd (List.cons.inj heq).1 (by decide)
      | false => exact absurd hd ((List.cons.inj heq).1 ▸ by decide)
  | infinite small =>
      cases negative <;> cases small
      · exact absurd hd ((List.cons.inj heq).1 ▸ by decide)
      · exact absurd hd ((List.cons.inj heq).1 ▸ by decide)
      · exact absurd (List.cons.inj heq).1 (by decide)
      · exact absurd hd ((List.cons.inj (List.cons.inj heq).2).1 ▸ by decide)
  | finite small m e =>
      have hmem : mark ∈ (finite small m e).shown.toList := by
        rw [heq]
        exact mem_signed.mpr (.inr (List.mem_append_right _ List.mem_cons_self))
      have hshown := allIn_shown_finite small m e mark hmem
      rcases hmark with rfl | rfl <;> exact absurd hshown (by decide)

end Binary64

/-! ## The text of an integer -/

theorem digitValue_lt {c : Char} (h : c.isDigit = true) : digitValue c < 10 := by
  rw [Char.isDigit_iff_toNat] at h
  have hlast : c.toNat ≤ '9'.toNat := h.2
  have hnine : '9'.toNat = '0'.toNat + 9 := by decide
  rw [digitValue]
  omega

theorem digitChar_digitValue {c : Char} (h : c.isDigit = true) : (digitValue c).digitChar = c := by
  have hfirst : '0'.toNat ≤ c.toNat := (Char.isDigit_iff_toNat.mp h).1
  apply Char.toNat_inj.mp
  rw [Nat.toNat_digitChar_of_lt_ten (digitValue_lt h), digitValue]
  have hzero : '0'.toNat = 48 := by decide
  omega

/-- A digit is the text of its value. -/
theorem toDigits_digitValue {c : Char} (h : c.isDigit = true) :
    Nat.toDigits 10 (digitValue c) = [c] := by
  rw [Nat.toDigits_of_lt_base (digitValue_lt h), digitChar_digitValue h]

/-- Further digits are put behind the text of a number other than zero. -/
theorem toDigits_append {ds : List Char} (h : AllIn Char.isDigit ds) {n : Nat} (hn : 0 < n) :
    Nat.toDigits 10 n ++ ds = Nat.toDigits 10 (ds.foldl (fun n c => n * 10 + digitValue c) n) := by
  induction ds generalizing n with
  | nil => rw [List.append_nil, List.foldl_nil]
  | cons d ds ih =>
      have hd : d.isDigit = true := h d List.mem_cons_self
      have hstep : Nat.toDigits 10 n ++ [d] = Nat.toDigits 10 (n * 10 + digitValue d) := by
        rw [← toDigits_digitValue hd,
          Nat.toDigits_append_toDigits (by decide) hn (digitValue_lt hd), Nat.mul_comm]
      rw [List.foldl_cons, ← ih (fun c hc => h c (List.mem_cons_of_mem _ hc)) (by omega), ← hstep,
        List.append_assoc, List.singleton_append]

/-- Digits with no zero in front are the text of the number that they write. -/
theorem natText_natOfDigits {ds : List Char} (h : IsDigits ds) (hzero : ds.head? ≠ some '0') :
    Json.natText (natOfDigits ds) = ds := by
  obtain ⟨d, ds', rfl, hd⟩ := h.exists_cons
  have hne : digitValue d ≠ 0 := by
    intro hvalue
    have hchar := digitChar_digitValue hd
    rw [hvalue] at hchar
    exact hzero (congrArg some hchar.symm)
  have hvalue : natOfDigits (d :: ds') =
      ds'.foldl (fun n c => n * 10 + digitValue c) (digitValue d) := by
    rw [natOfDigits, List.foldl_cons, Nat.zero_mul, Nat.zero_add]
  have htail : AllIn Char.isDigit ds' := fun c hc => h.2 c (List.mem_cons_of_mem _ hc)
  have happend := toDigits_append htail (Nat.pos_of_ne_zero hne)
  rw [toDigits_digitValue hd, List.singleton_append] at happend
  rw [Json.natText_eq_toDigits, hvalue, ← happend]

theorem toList_toString_signedValue {negative : Bool} {n : Nat} (hn : negative = true → 0 < n) :
    (toString (signedValue negative n)).toList = signed negative (Json.natText n) := by
  cases negative with
  | false => rfl
  | true =>
      obtain ⟨m, rfl⟩ := Nat.exists_eq_succ_of_ne_zero (Nat.ne_of_gt (hn rfl))
      change ("-" ++ toString (m + 1)).toList = _
      rw [String.toList_append]
      rfl

theorem natOfDigits_pos {ds : List Char} (h : IsDigits ds) (hzero : ds.head? ≠ some '0') :
    0 < natOfDigits ds := by
  refine Nat.pos_of_ne_zero fun hnil => hzero ?_
  rw [← natText_natOfDigits h hzero, hnil]
  rfl

/-- An integer is written out as it was read iff no zero stands in front, but for zero by itself. -/
theorem toString_signedValue_eq_iff {negative : Bool} {ds : List Char} (h : IsDigits ds) :
    (toString (signedValue negative (natOfDigits ds))).toList = signed negative ds ↔
      (ds.head? = some '0' → negative = false ∧ ds = ['0']) := by
  by_cases hzero : ds.head? = some '0'
  · obtain ⟨ds', rfl⟩ := List.head?_eq_some_iff.mp hzero
    simp only [hzero, true_imp_iff]
    constructor
    · intro heq
      by_cases hn : natOfDigits ('0' :: ds') = 0
      · rw [hn] at heq
        cases negative with
        | false => exact ⟨rfl, heq.symm⟩
        | true => exact absurd (List.cons.inj heq).1 (by decide)
      · -- the text of a number other than zero does not begin with a zero
        rw [toList_toString_signedValue fun _ => Nat.pos_of_ne_zero hn] at heq
        have htext := signed_inj heq
        exact absurd (congrArg List.head? htext) (Json.head?_natText (Nat.pos_of_ne_zero hn))
    · rintro ⟨rfl, heq⟩
      rw [heq]
      decide
  · simp only [hzero, false_imp_iff, iff_true]
    rw [toList_toString_signedValue fun _ => natOfDigits_pos h hzero,
      natText_natOfDigits h hzero]

end FacetQuery

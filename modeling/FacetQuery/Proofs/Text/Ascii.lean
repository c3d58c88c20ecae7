import FacetQuery.Text.Lower
import FacetQuery.Text.Utf8

/-!
# `FacetQuery.Proofs.Text.Ascii` — small letters and bytes of ASCII texts

The small letter of a character may depend on its neighbours, because a capital sigma has a form of its own
at the end of a word. Two cases do not depend on them: an ASCII text, which is taken character by character,
and what stands behind an underscore. An underscore has no case and is not looked through, so what follows
it has no say in how the text in front of it ends (`toList_lower_append`).

The bytes of an ASCII text are its characters, and reading them gives the text back (`decodeLossy_of_ascii`).
-/

namespace FacetQuery.Text

/-! ## Plain texts -/

/-- The text holds ASCII characters only. -/
def IsAscii (cs : List Char) : Prop := ∀ c ∈ cs, c.toNat < 128

instance {cs : List Char} : Decidable (IsAscii cs) := List.decidableBAll (fun c : Char => c.toNat < 128) cs

theorem lowerChar_of_ascii {c : Char} (h : c.toNat < 128) : lowerChar c = [c.toLower] := by
  have hall : ∀ n < 128, lowerChar (Char.ofNat n) = [(Char.ofNat n).toLower] := by decide +kernel
  have hc := hall c.toNat h
  rwa [Char.ofNat_toNat] at hc

/-- An ASCII text is taken character by character, whatever stands in front of it. -/
theorem lowerAfter_of_ascii (done : List Char) {cs : List Char} (h : IsAscii cs) :
    lowerAfter done cs = cs.map Char.toLower := by
  induction cs generalizing done with
  | nil => rfl
  | cons c cs ih =>
      have hc : c.toNat < 128 := h c List.mem_cons_self
      have hsigma : c ≠ 'Σ' := by
        rintro rfl
        exact absurd hc (by decide)
      rw [lowerAfter, if_neg hsigma, lowerChar_of_ascii hc,
        ih _ fun d hd => h d (List.mem_cons_of_mem c hd)]
      rfl

theorem toList_lower_of_ascii {s : String} (h : IsAscii s.toList) :
    (lower s).toList = s.toList.map Char.toLower := by
  rw [lower, String.toList_ofList, lowerAfter_of_ascii [] h]

/-! ## Behind an underscore -/

/-- Nothing behind an underscore matters for how a word in front of it ends. -/
theorem startsCased_underscore (cs rest : List Char) :
    startsCased (cs ++ '_' :: rest) = startsCased (cs ++ ['_']) := by
  have hmark : isCaseIgnorable '_' = false := by decide +kernel
  unfold startsCased
  rw [List.dropWhile_append, List.dropWhile_append]
  split
  · rw [List.dropWhile_cons_of_neg (by simp [hmark]), List.dropWhile_cons_of_neg (by simp [hmark])]
    rfl
  · next hne =>
      obtain ⟨c, cs', hc⟩ := List.exists_cons_of_ne_nil (mt List.isEmpty_iff.mpr hne)
      rw [hc]
      rfl

/-- The small letters of a text up to an underscore come first, then those of what follows. -/
theorem lowerAfter_underscore (done cs rest : List Char) :
    lowerAfter done (cs ++ '_' :: rest) =
      lowerAfter done (cs ++ ['_']) ++ lowerAfter ('_' :: (cs.reverse ++ done)) rest := by
  induction cs generalizing done with
  | nil =>
      rw [List.nil_append, List.nil_append, lowerAfter, lowerAfter]
      simp [lowerAfter]
  | cons c cs ih =>
      rw [List.cons_append, List.cons_append, lowerAfter, lowerAfter, startsCased_underscore, ih]
      simp

/-- A head with an underscore and an ASCII word is taken part by part. -/
theorem toList_lower_append (head : String) {word : String} (h : IsAscii word.toList) :
    (lower (head ++ "_" ++ word)).toList =
      (lower (head ++ "_")).toList ++ word.toList.map Char.toLower := by
  have hmark : ("_" : String).toList = ['_'] := rfl
  simp only [lower, String.toList_ofList, String.toList_append, hmark, List.append_assoc,
    List.singleton_append]
  rw [lowerAfter_underscore, lowerAfter_of_ascii _ h]

/-! ## Bytes -/

/-- The bytes of an array are collected from the first to the last. -/
theorem toList_loop (bytes : ByteArray) (i : Nat) (done : List UInt8) :
    ByteArray.toList.loop bytes i done = done.reverse ++ bytes.data.toList.drop i := by
  fun_induction ByteArray.toList.loop bytes i done with
  | case1 i done h ih =>
      have hi : i < bytes.data.toList.length := h
      rw [ih, List.drop_eq_getElem_cons hi]
      simp [ByteArray.get!, h]
  | case2 i done h =>
      have hi : bytes.data.toList.length ≤ i := Nat.le_of_not_lt h
      simp [List.drop_eq_nil_of_le hi]

theorem utf8EncodeChar_of_ascii {c : Char} (h : c.toNat < 128) :
    String.utf8EncodeChar c = [c.val.toUInt8] := by
  refine String.utf8EncodeChar_eq_singleton ?_
  rw [Char.utf8Size, if_pos]
  exact UInt32.le_iff_toNat_le.mpr (Nat.le_of_lt_succ h)

/-- An ASCII text has one byte for each character. -/
theorem toList_toUTF8_of_ascii {s : String} (h : IsAscii s.toList) :
    s.toUTF8.toList = s.toList.map fun c => c.val.toUInt8 := by
  have hbytes : s.toUTF8 = s.toList.utf8Encode :=
    (congrArg String.toByteArray String.ofList_toList).symm.trans String.toByteArray_ofList
  have hflat : s.toList.flatMap String.utf8EncodeChar = s.toList.map fun c => c.val.toUInt8 := by
    rw [List.flatMap_def, List.map_congr_left fun c hc => utf8EncodeChar_of_ascii (h c hc),
      ← List.flatMap_def, ← List.map_eq_flatMap]
  rw [ByteArray.toList, toList_loop, hbytes, List.utf8Encode, List.toList_data_toByteArray, hflat]
  simp

theorem toNat_byte_of_ascii {c : Char} (h : c.toNat < 128) : c.val.toUInt8.toNat = c.toNat := by
  rw [UInt32.toNat_toUInt8]
  exact Nat.mod_eq_of_lt (Nat.lt_trans h (by decide))

/-- Each byte of an ASCII text is read as its character. -/
theorem decodeFrom_of_ascii (done : List Char) {cs : List Char} (h : IsAscii cs) :
    decodeFrom done none (cs.map fun c => c.val.toUInt8) = done.reverse ++ cs := by
  induction cs generalizing done with
  | nil => simp [decodeFrom]
  | cons c cs ih =>
      have hc : c.toNat < 128 := h c List.mem_cons_self
      have hlead : leadByte c.val.toUInt8.toNat = .inl c := by
        rw [toNat_byte_of_ascii hc, leadByte, if_pos hc, Char.ofNat_toNat]
      rw [List.map_cons, decodeFrom]
      simp only [hlead]
      rw [ih _ fun d hd => h d (List.mem_cons_of_mem c hd)]
      simp

/-- The bytes of an ASCII text begin with no byte order mark and are read as the text. -/
theorem decodeLossy_of_ascii {s : String} (h : IsAscii s.toList) :
    decodeLossy (dropByteOrderMark s.toUTF8.toList) = s.toList := by
  have hmark : dropByteOrderMark (s.toList.map fun c => c.val.toUInt8) =
      s.toList.map fun c => c.val.toUInt8 := by
    unfold dropByteOrderMark
    split
    · next rest heq =>
        obtain ⟨c, cs, hcs, hbyte, -⟩ := List.map_eq_cons_iff.mp heq
        have hc := h c (hcs ▸ List.mem_cons_self)
        rw [← toNat_byte_of_ascii hc, hbyte] at hc
        exact absurd hc (by decide)
    · rfl
  rw [toList_toUTF8_of_ascii h, hmark, decodeLossy, decodeFrom_of_ascii [] h, List.reverse_nil,
    List.nil_append]

end FacetQuery.Text

/-!
# `FacetQuery.Text.Utf8` — reading bytes as UTF-8 without giving up

Bytes that are no UTF-8 are read as U+FFFD, one for each longest run that could have begun a character.
The reader walks the bytes once; between bytes it remembers how many continuation bytes are missing and
in which range the next one must lie.
-/

namespace FacetQuery.Text

/-- A character that is partly read: its bits so far, how many bytes are missing, and the range of the
    next one. -/
structure Partial where
  bits : Nat
  missing : Nat
  low : Nat
  high : Nat
  deriving DecidableEq, Inhabited

/-- The mark for bytes that are no text. -/
def replacement : Char := '\ufffd'

/-- What a byte that stands at the start of a character begins: a whole character, a part of one, or
    nothing. -/
def leadByte (b : Nat) : Char ⊕ Option Partial :=
  if b < 0x80 then .inl (Char.ofNat b)
  else if 0xC2 ≤ b ∧ b ≤ 0xDF then .inr (some ⟨b - 0xC0, 1, 0x80, 0xBF⟩)
  else if b = 0xE0 then .inr (some ⟨0, 2, 0xA0, 0xBF⟩)
  else if b = 0xED then .inr (some ⟨0xD, 2, 0x80, 0x9F⟩)
  else if 0xE1 ≤ b ∧ b ≤ 0xEF then .inr (some ⟨b - 0xE0, 2, 0x80, 0xBF⟩)
  else if b = 0xF0 then .inr (some ⟨0, 3, 0x90, 0xBF⟩)
  else if 0xF1 ≤ b ∧ b ≤ 0xF3 then .inr (some ⟨b - 0xF0, 3, 0x80, 0xBF⟩)
  else if b = 0xF4 then .inr (some ⟨4, 3, 0x80, 0x8F⟩)
  else .inr none

/-- Reads the bytes that follow a partly read character; `done` holds the characters before, the last one
    first. -/
def decodeFrom (done : List Char) (open_ : Option Partial) : List UInt8 → List Char
  | [] =>
      match open_ with
      | none => done.reverse
      | some _ => (replacement :: done).reverse
  | byte :: rest =>
      let b := byte.toNat
      let fresh (done : List Char) : List Char × Option Partial :=
        match leadByte b with
        | .inl c => (c :: done, none)
        | .inr (some p) => (done, some p)
        | .inr none => (replacement :: done, none)
      let (done', open_') :=
        match open_ with
        | none => fresh done
        | some p =>
            if p.low ≤ b ∧ b ≤ p.high then
              let bits := p.bits * 64 + (b - 0x80)
              if p.missing = 1 then (Char.ofNat bits :: done, none)
              else (done, some ⟨bits, p.missing - 1, 0x80, 0xBF⟩)
            else fresh (replacement :: done)
      decodeFrom done' open_' rest

/-- The text of the bytes, with a mark for every run that is no text. -/
def decodeLossy (bytes : List UInt8) : List Char := decodeFrom [] none bytes

/-- The bytes after a byte order mark. -/
def dropByteOrderMark : List UInt8 → List UInt8
  | 0xEF :: 0xBB :: 0xBF :: rest => rest
  | bytes => bytes

example : decodeLossy [0x61, 0xC3, 0x28, 0xE2, 0x82, 0xAC, 0xF0, 0x9F] = ['a', '\ufffd', '(', '€', '\ufffd'] := by
  decide +kernel

end FacetQuery.Text

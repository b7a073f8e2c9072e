/-!
# UTF-8

Decoding of single characters and of whole byte runs. Overlong forms, surrogates and values beyond
the last code point are no characters.
-/

namespace GoComplexity.Text

/-- The low six bits of a continuation byte. -/
def continuation? (b : UInt8) : Option Nat :=
  if 0x80 ≤ b ∧ b < 0xC0 then some (b.toNat - 0x80) else none

/-- A character that needs at least `least` as code point to be written in this many bytes. -/
def scalar? (least n : Nat) : Option Char :=
  if least ≤ n ∧ n.isValidChar then some (Char.ofNat n) else none

/-- The first character of a byte run and the number of bytes it takes. -/
def decodeChar? : List UInt8 → Option (Char × Nat)
  | [] => none
  | b :: rest =>
    if b < 0x80 then some (Char.ofNat b.toNat, 1)
    else if b < 0xC0 then none
    else if b < 0xE0 then
      match rest with
      | b1 :: _ => do
        let c1 ← continuation? b1
        let c ← scalar? 0x80 ((b.toNat - 0xC0) * 64 + c1)
        return (c, 2)
      | _ => none
    else if b < 0xF0 then
      match rest with
      | b1 :: b2 :: _ => do
        let c1 ← continuation? b1
        let c2 ← continuation? b2
        let c ← scalar? 0x800 (((b.toNat - 0xE0) * 64 + c1) * 64 + c2)
        return (c, 3)
      | _ => none
    else if b < 0xF8 then
      match rest with
      | b1 :: b2 :: b3 :: _ => do
        let c1 ← continuation? b1
        let c2 ← continuation? b2
        let c3 ← continuation? b3
        let c ← scalar? 0x10000 ((((b.toNat - 0xF0) * 64 + c1) * 64 + c2) * 64 + c3)
        return (c, 4)
      | _ => none
    else none

/-- The text of a byte run, if it is UTF-8. -/
def decode? (bytes : ByteArray) : Option String := String.fromUTF8? bytes

end GoComplexity.Text

import FieldLint.Text.Basic

/-!
# Reading bytes as text

Files hold UTF-8. Where the bytes are no UTF-8, a replacement character stands for each longest run
of bytes that could have started a character. A byte order mark is kept.
-/

namespace FieldLint

namespace Utf8

/-- A character of several bytes that is not complete yet. -/
structure Pending where
  /-- how many bytes are still to come -/
  missing : Nat
  /-- the value of the bytes so far -/
  value : Nat
  /-- the least next byte -/
  lower : UInt8
  /-- the greatest next byte -/
  upper : UInt8
  deriving DecidableEq, Repr

/-- The character that stands for bytes that cannot be read. -/
def replacement : Char := '\uFFFD'

/-- What a byte at the start of a character means: a character of its own, the first byte of a
longer one, or nothing that can be read. -/
def lead (b : UInt8) : Text × Option Pending :=
  let n := b.toNat
  if n < 0x80 then ([Char.ofNat n], none)
  else if n < 0xC2 then ([replacement], none)
  else if n < 0xE0 then ([], some ⟨1, n - 0xC0, 0x80, 0xBF⟩)
  else if n < 0xF0 then
    ([], some ⟨2, n - 0xE0, if n = 0xE0 then 0xA0 else 0x80, if n = 0xED then 0x9F else 0xBF⟩)
  else if n < 0xF5 then
    ([], some ⟨3, n - 0xF0, if n = 0xF0 then 0x90 else 0x80, if n = 0xF4 then 0x8F else 0xBF⟩)
  else ([replacement], none)

/-- Read bytes after a character that may not be complete yet. -/
def decodeAfter : Option Pending → List UInt8 → Text
  | none, [] => []
  | some _, [] => [replacement]
  | none, b :: rest => (lead b).1 ++ decodeAfter (lead b).2 rest
  | some p, b :: rest =>
    if p.lower ≤ b && b ≤ p.upper then
      let value := p.value * 64 + (b.toNat - 0x80)
      if p.missing ≤ 1 then Char.ofNat value :: decodeAfter none rest
      else decodeAfter (some ⟨p.missing - 1, value, 0x80, 0xBF⟩) rest
    else replacement :: ((lead b).1 ++ decodeAfter (lead b).2 rest)

/-- Read bytes as text. -/
def decode (bytes : List UInt8) : Text :=
  decodeAfter none bytes

end Utf8

end FieldLint

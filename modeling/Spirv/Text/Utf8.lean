/-!
# UTF-8

Strings as bytes and back. Reading never fails: bytes that are no UTF-8 are read as replacement
characters.

* `Utf8.encode`: the bytes of a string.
* `Utf8.decode`: the text of any bytes. Each longest piece that could still have become a character,
  and each byte that can start none, is read as one U+FFFD.
* `Utf8.State`, `Utf8.step`: the machine behind it, which takes one byte at a time.
-/

namespace Spirv.Utf8

/-- The bytes of a string. -/
def encode (s : String) : List UInt8 := s.toUTF8.data.toList

/-- The character read in place of bytes that are no UTF-8. -/
def replacement : Char := '\uFFFD'

/-- A character of which some bytes have been read. -/
structure Pending where
  /-- The bits of the code point that the bytes so far carry. -/
  value : Nat
  /-- How many bytes are still due. -/
  due : Nat
  /-- The least byte that can come next. -/
  low : Nat
  /-- The greatest byte that can come next. -/
  high : Nat

/-- Where reading stands between two bytes. -/
structure State where
  text : String := ""
  /-- The character that is under way, if the last byte did not end one. -/
  pending : Option Pending := none

/-- What the first byte `b` of a character starts, given the text before it. The ranges of second
bytes exclude overlong forms, surrogates and code points past U+10FFFF. -/
def start (text : String) (b : Nat) : State :=
  if b ≤ 0x7F then ⟨text.push (.ofNat b), none⟩
  else if 0xC2 ≤ b ∧ b ≤ 0xDF then ⟨text, some ⟨b - 0xC0, 1, 0x80, 0xBF⟩⟩
  else if b = 0xE0 then ⟨text, some ⟨0, 2, 0xA0, 0xBF⟩⟩
  else if b = 0xED then ⟨text, some ⟨0xD, 2, 0x80, 0x9F⟩⟩
  else if 0xE1 ≤ b ∧ b ≤ 0xEF then ⟨text, some ⟨b - 0xE0, 2, 0x80, 0xBF⟩⟩
  else if b = 0xF0 then ⟨text, some ⟨0, 3, 0x90, 0xBF⟩⟩
  else if 0xF1 ≤ b ∧ b ≤ 0xF3 then ⟨text, some ⟨b - 0xF0, 3, 0x80, 0xBF⟩⟩
  else if b = 0xF4 then ⟨text, some ⟨4, 3, 0x80, 0x8F⟩⟩
  else ⟨text.push replacement, none⟩

/-- The state after one more byte. A byte that cannot continue the character under way ends it as a
replacement character and is then read as a first byte. -/
def step (s : State) (byte : UInt8) : State :=
  let b := byte.toNat
  match s.pending with
  | none => start s.text b
  | some p =>
    if p.low ≤ b ∧ b ≤ p.high then
      let value := p.value * 0x40 + (b - 0x80)
      if p.due ≤ 1 then ⟨s.text.push (.ofNat value), none⟩
      else ⟨s.text, some ⟨value, p.due - 1, 0x80, 0xBF⟩⟩
    else start (s.text.push replacement) b

/-- The text when the bytes end: a character that is still under way is a replacement character. -/
def State.finish (s : State) : String :=
  match s.pending with
  | none => s.text
  | some _ => s.text.push replacement

/-- The text of any bytes. -/
def decode (bytes : List UInt8) : String := (bytes.foldl step {}).finish

end Spirv.Utf8

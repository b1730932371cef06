/-!
# Words

The 32 bit words that a module is a sequence of, and the ways in which a word is made of smaller
parts.

* `Word.bytes`, `Word.ofBytes`: the four bytes of a word, lowest first (`bytes_ofBytes`,
  `bytes_injective`).
* `Word.swap`: the word with its bytes in the opposite order, an involution (`swap_swap`).
* `Word.ofByteList`: bytes taken four to a word (`ofByteList_bytes_append`).
* `Word.halves`, `Word.join`: a 64 bit number as two words, low word first.
* `Word.pack`, `Word.wordCount`, `Word.opcodeNumber`: the first word of an instruction, which holds
  the word count above the opcode number.
* `Word.decimal`, `Word.hex`, `Word.hexPadded`: a word in text.
-/

namespace Spirv

/-- A 32 bit word. -/
abbrev Word := UInt32

namespace Word

/-! ## Bytes -/

/-- The bytes of a word, lowest first. -/
def bytes (w : Word) : List UInt8 :=
  [.ofNat w.toNat, .ofNat (w.toNat / 0x100), .ofNat (w.toNat / 0x10000),
    .ofNat (w.toNat / 0x1000000)]

/-- The word with the given bytes, lowest first. -/
def ofBytes (a b c d : UInt8) : Word :=
  .ofNat (a.toNat + 0x100 * b.toNat + 0x10000 * c.toNat + 0x1000000 * d.toNat)

theorem toNat_ofBytes (a b c d : UInt8) :
    (ofBytes a b c d).toNat =
      a.toNat + 0x100 * b.toNat + 0x10000 * c.toNat + 0x1000000 * d.toNat := by
  have := a.toNat_lt
  have := b.toNat_lt
  have := c.toNat_lt
  have := d.toNat_lt
  simp only [ofBytes, UInt32.toNat_ofNat']
  omega

/-- A word of four bytes has those bytes. -/
@[simp] theorem bytes_ofBytes (a b c d : UInt8) : (ofBytes a b c d).bytes = [a, b, c, d] := by
  have := a.toNat_lt
  have := b.toNat_lt
  have := c.toNat_lt
  have := d.toNat_lt
  simp only [bytes, toNat_ofBytes, List.cons.injEq, and_true, ← UInt8.toNat_inj,
    UInt8.toNat_ofNat']
  omega

/-- The word with its bytes in the opposite order. -/
def swap (w : Word) : Word :=
  ofBytes (.ofNat (w.toNat / 0x1000000)) (.ofNat (w.toNat / 0x10000)) (.ofNat (w.toNat / 0x100))
    (.ofNat w.toNat)

/-- Swapping the bytes reverses them. -/
@[simp] theorem bytes_swap (w : Word) : w.swap.bytes = w.bytes.reverse := by
  rw [swap, bytes_ofBytes]
  rfl

/-- A word is determined by its bytes. -/
theorem bytes_injective {v w : Word} (h : v.bytes = w.bytes) : v = w := by
  have := v.toNat_lt
  have := w.toNat_lt
  simp only [bytes, List.cons.injEq, and_true, ← UInt8.toNat_inj, UInt8.toNat_ofNat'] at h
  rw [← UInt32.toNat_inj]
  omega

@[simp] theorem swap_swap (w : Word) : w.swap.swap = w :=
  bytes_injective (by simp)

/-- Takes bytes four to a word onto the end of `acc` and drops the bytes that fill no word. -/
def ofByteListOnto (acc : Array Word) : List UInt8 → Array Word
  | a :: b :: c :: d :: rest => ofByteListOnto (acc.push (ofBytes a b c d)) rest
  | _ => acc

/-- The words that consist of the given bytes, the first byte lowest; bytes at the end that fill no
word are dropped. -/
def ofByteList (bytes : List UInt8) : List Word := (ofByteListOnto #[] bytes).toList

theorem toList_ofByteListOnto : ∀ (bytes : List UInt8) (acc : Array Word),
    (ofByteListOnto acc bytes).toList = acc.toList ++ ofByteList bytes
  | a :: b :: c :: d :: rest, acc => by
    have hfour : ofByteList (a :: b :: c :: d :: rest) = ofBytes a b c d :: ofByteList rest := by
      rw [ofByteList, ofByteListOnto, toList_ofByteListOnto rest]
      rfl
    rw [ofByteListOnto, toList_ofByteListOnto rest, hfour, Array.toList_push, List.append_assoc]
    rfl
  | [], _ | [_], _ | [_, _], _ | [_, _, _], _ => by simp [ofByteListOnto, ofByteList]

@[simp] theorem ofByteList_cons (a b c d : UInt8) (rest : List UInt8) :
    ofByteList (a :: b :: c :: d :: rest) = ofBytes a b c d :: ofByteList rest := by
  rw [ofByteList, ofByteListOnto, toList_ofByteListOnto]
  simp

/-- A word is made of its bytes. -/
@[simp] theorem ofByteList_bytes_append (w : Word) (rest : List UInt8) :
    ofByteList (w.bytes ++ rest) = w :: ofByteList rest := by
  have h : ofBytes (.ofNat w.toNat) (.ofNat (w.toNat / 0x100)) (.ofNat (w.toNat / 0x10000))
      (.ofNat (w.toNat / 0x1000000)) = w := bytes_injective (by rw [bytes_ofBytes, bytes])
  rw [bytes, List.cons_append, List.cons_append, List.cons_append, List.cons_append,
    ofByteList_cons, h, List.nil_append]

/-! ## Halves of a 64 bit number -/

/-- The low and the high word of a 64 bit number. -/
def halves (n : UInt64) : Word × Word := (.ofNat n.toNat, .ofNat (n.toNat / 0x100000000))

/-- The 64 bit number with the given low and high word. -/
def join (low high : Word) : UInt64 := .ofNat (low.toNat + 0x100000000 * high.toNat)

@[simp] theorem join_halves (n : UInt64) : join (halves n).1 (halves n).2 = n := by
  have := n.toNat_lt
  simp only [join, halves, ← UInt64.toNat_inj, UInt64.toNat_ofNat', UInt32.toNat_ofNat']
  omega

/-! ## The first word of an instruction -/

/-- The word count that the first word of an instruction declares. -/
def wordCount (w : Word) : Nat := w.toNat / 0x10000

/-- The opcode number that the first word of an instruction holds. -/
def opcodeNumber (w : Word) : UInt16 := .ofNat w.toNat

/-- The first word of an instruction with the given word count and opcode number. -/
def pack (count : Nat) (number : UInt16) : Word := .ofNat (count * 0x10000 + number.toNat)

theorem wordCount_lt (w : Word) : w.wordCount < 0x10000 := by
  have := w.toNat_lt
  unfold wordCount
  omega

theorem wordCount_pack {count : Nat} (h : count < 0x10000) (number : UInt16) :
    (pack count number).wordCount = count := by
  have := number.toNat_lt
  simp only [wordCount, pack, UInt32.toNat_ofNat']
  omega

/-- The opcode number is kept even when the word count is too large for its half of the word. -/
@[simp] theorem opcodeNumber_pack (count : Nat) (number : UInt16) :
    (pack count number).opcodeNumber = number := by
  have := number.toNat_lt
  simp only [opcodeNumber, pack, ← UInt16.toNat_inj, UInt16.toNat_ofNat', UInt32.toNat_ofNat']
  omega

@[simp] theorem pack_wordCount_opcodeNumber (w : Word) : pack w.wordCount w.opcodeNumber = w := by
  have := w.toNat_lt
  simp only [wordCount, opcodeNumber, pack, ← UInt32.toNat_inj, UInt16.toNat_ofNat',
    UInt32.toNat_ofNat']
  omega

/-! ## Text -/

/-- A word in decimal. -/
def decimal (w : Word) : String := toString w.toNat

/-- A word in lower-case hexadecimal, without leading zeros. -/
def hex (w : Word) : String := String.ofList (Nat.toDigits 16 w.toNat)

/-- A word as `0x` and eight lower-case hexadecimal digits. -/
def hexPadded (w : Word) : String :=
  "0x" ++ String.ofList ((Nat.toDigits 16 w.toNat).leftpad 8 '0')

end Word

end Spirv

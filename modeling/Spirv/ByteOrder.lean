import Spirv.Diagnostic
import Spirv.Log

/-!
# Byte order

A module may have been written in either byte order. Its words are loaded in the order of the host
and corrected once the magic number has shown how they were written.

* `ByteOrder.fix`: a loaded word as its writer meant it (`fix_fix`).
* `ByteOrder.detect`: the byte order that the magic number shows.
* `wordsOfBytes`: loads the words of a binary.
-/

namespace Spirv

/-- The word that a module starts with. -/
def magicNumber : Word := 0x07230203

/-- The order in which the bytes of each word of a module stand. -/
inductive ByteOrder where
  /-- Lowest byte first. -/
  | little
  /-- Highest byte first. -/
  | big
deriving DecidableEq

namespace ByteOrder

/-- The order in which words are loaded. -/
def host : ByteOrder := little

/-- The name of a byte order in messages. -/
def name : ByteOrder → String
  | little => "Little"
  | big => "Big"

/-- The other byte order. -/
def opposite : ByteOrder → ByteOrder
  | little => big
  | big => little

/-- The value of a loaded word of a module in the given order. -/
def fix (order : ByteOrder) (word : Word) : Word := if order = host then word else word.swap

@[simp] theorem fix_fix (order : ByteOrder) (word : Word) : order.fix (order.fix word) = word := by
  unfold fix
  split <;> simp

@[simp] theorem fix_opposite_swap (order : ByteOrder) (word : Word) :
    order.opposite.fix word.swap = order.fix word := by
  cases order <;> simp [fix, opposite, host]

/-- The report of a byte order that was found. -/
def record (order : ByteOrder) : Record where
  level := .debug
  message := "stream is " ++ order.name ++ " endian, host is " ++ host.name ++ " endian"

/-- The byte order of a module, which its first word shows: it is the magic number in one order or
the other. -/
def detect : List Word → Logged (Except Diagnostic ByteOrder)
  | [] => ⟨.error ⟨0, none, .emptyBinary⟩, #[]⟩
  | first :: _ =>
    if first = magicNumber then ⟨.ok little, #[little.record]⟩
    else if first = magicNumber.swap then ⟨.ok big, #[big.record]⟩
    else ⟨.error ⟨0, some first, .invalidMagic first⟩, #[]⟩

end ByteOrder

/-- The words of a binary, loaded in the order of the host. -/
def wordsOfBytes (bytes : List UInt8) : Except Diagnostic (List Word) :=
  if bytes.length % 4 = 0 then .ok (Word.ofByteList bytes)
  else .error ⟨bytes.length / 4, none, .partialWord bytes.length⟩

end Spirv

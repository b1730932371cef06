import Spirv.ByteOrder
import Spirv.Text.Utf8

/-!
# Strings in words

A string stands in a module as its UTF-8 bytes and a nul, four bytes to a word with the first byte
lowest, and zeros to the end of the last word.

* `Packed.words`: the words of a string.
* `Packed.read?`: the string at the start of some words.
-/

namespace Spirv.Packed

/-- The words of a string, its nul included. -/
def words (s : String) : List Word :=
  let bytes := Utf8.encode s
  Word.ofByteList (bytes ++ List.replicate (4 - bytes.length % 4) 0)

/-- The string at the start of `words`, which belong to a module in the given order, and the number
of words before the one that holds its nul. Bytes behind the nul do not matter. -/
def read? (order : ByteOrder) (words : List Word) : Option (String × Nat) :=
  (words.findIdx? fun word => (order.fix word).bytes.contains 0).map fun last =>
    let bytes := (words.take (last + 1)).flatMap fun word => (order.fix word).bytes
    (Utf8.decode (bytes.takeWhile (· != 0)), last)

end Spirv.Packed

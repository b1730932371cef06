import Spirv.Error
import Spirv.Text.Packed

/-!
# Building instructions

* `Argument`: a value that an instruction can hold; `Argument.words` is its encoding.
* `Builder`: an instruction under construction, which never outgrows its 16 bit word count.
* `Builder.append`: adds an argument, unless there is no room for it.
* `Builder.words`: the encoded instruction.
-/

namespace Spirv

/-- A value that can be appended to an instruction. -/
inductive Argument where
  | word (value : Word)
  /-- A 64 bit number, low word first. -/
  | double (value : UInt64)
  | string (value : String)

/-- The encoding of an argument. -/
def Argument.words : Argument → List Word
  | word value => [value]
  | double value => [(Word.halves value).1, (Word.halves value).2]
  | string value => Packed.words value

/-- The greatest number of words that an instruction can have. -/
def maxWordCount : Nat := 0xFFFF

/-- An instruction under construction. -/
structure Builder where
  opcode : Opcode
  /-- The words of the arguments that were appended. -/
  body : Array Word := #[]
  /-- There is room for the first word. -/
  size_lt : body.size < maxWordCount := by decide

namespace Builder

/-- The number of words so far, the first word included. -/
def wordCount (b : Builder) : Nat := b.body.size + 1

theorem size_append_words (body : Array Word) (words : List Word) :
    (body ++ words).size = body.size + words.length := by
  rw [← Array.length_toList, Array.toList_appendList, List.length_append, Array.length_toList]

/-- Adds an argument. If the instruction would become too long, it stays as it is. -/
def append (b : Builder) (a : Argument) : Builder × Option Error :=
  let words := a.words
  if h : b.body.size + words.length < maxWordCount then
    ({ b with body := b.body ++ words, size_lt := by rwa [size_append_words] }, none)
  else (b, some .instructionTooLong)

/-- The encoded instruction. -/
def words (b : Builder) : List Word := Word.pack b.wordCount b.opcode.code :: b.body.toList

end Builder

end Spirv

import Spirv.ExtInstSet
import Spirv.Opcode
import Spirv.Word

/-!
# Diagnostics

Where in a binary reading stopped, and why.

* `Cause`: everything that can be wrong with a binary; `Cause.message` is its wording.
* `Diagnostic`: a cause with the position it was found at and the offending word, if there is one.
-/

namespace Spirv

/-- What is wrong with a binary. -/
inductive Cause where
  /-- There is no word at all. -/
  | emptyBinary
  /-- The first word is the magic number in neither byte order. -/
  | invalidMagic (word : Word)
  /-- The module ends inside the header. -/
  | truncatedHeader (present : Nat)
  /-- The bytes do not fill the last word. -/
  | partialWord (byteCount : Nat)
  /-- The buffer has no room for a header. -/
  | shortHeaderBuffer (size : Nat)
  /-- There is no word where an instruction should start. -/
  | missingInstruction
  | unknownOpcode (number : UInt16)
  /-- The declared word count is below the least that the opcode can have. -/
  | tooFewWords (opcode : Opcode) (declared minimum : Nat)
  /-- The module ends inside the instruction. -/
  | truncatedInstruction (opcode : Opcode)
  /-- The opcode has no operand at this position, which counts from 1. -/
  | excessOperand (opcode : Opcode) (position : Nat)
  /-- The operands do not end where the instruction does. -/
  | wordCountMismatch (opcode : Opcode) (declared taken : Nat)
  /-- There is no word where an operand should start. -/
  | missingOperand (kind : OperandKind)
  | unterminatedString
  /-- An extended instruction without a set to take it from. -/
  | noExtInstSet
  | unknownExtInst (set : ExtInstSet) (number : Word)
  | unknownExtInstSet (name : String)
  | unknownEnumerant (kind : OperandKind) (value : Word)
deriving DecidableEq

namespace Cause

/-- The wording of a cause. -/
def message : Cause → String
  | emptyBinary => "empty binary"
  | invalidMagic word => "invalid SPIR-V magic number '" ++ word.hex ++ "'"
  | truncatedHeader present =>
    "invalid SPIR-V header: " ++ toString present ++ " of 5 words present"
  | partialWord byteCount =>
    "binary length of " ++ toString byteCount ++ " bytes is not a whole number of words"
  | shortHeaderBuffer size => "header needs 5 words but the buffer holds " ++ toString size
  | missingInstruction => "missing instruction"
  | unknownOpcode number => "invalid opcode '" ++ toString number.toNat ++ "'"
  | tooFewWords opcode declared minimum =>
    opcode.mnemonic ++ " has word count " ++ toString declared ++ ", minimum is "
      ++ toString minimum
  | truncatedInstruction opcode => opcode.mnemonic ++ " is truncated by the end of the binary"
  | excessOperand opcode position =>
    opcode.mnemonic ++ " has no operand at position " ++ toString position
  | wordCountMismatch opcode declared taken =>
    opcode.mnemonic ++ " word count mismatch: declared " ++ toString declared
      ++ ", operands take " ++ toString taken
  | missingOperand kind => "missing " ++ kind.describe ++ " operand"
  | unterminatedString => "string operand is not nul terminated"
  | noExtInstSet => "extended instruction used before any extended instruction set import"
  | unknownExtInst set number =>
    "invalid " ++ set.name ++ " instruction '" ++ number.decimal ++ "'"
  | unknownExtInstSet name => "invalid extended instruction set import '" ++ name ++ "'"
  | unknownEnumerant kind value =>
    "invalid " ++ kind.describe ++ " operand '" ++ value.decimal ++ "'"

end Cause

/-- A fault in a binary and its place. -/
structure Diagnostic where
  /-- The index of the word at which reading stopped. -/
  position : Nat
  /-- The offending word, when there was one to read. -/
  word : Option Word
  cause : Cause
deriving DecidableEq

/-- The wording of a diagnostic. -/
def Diagnostic.message (d : Diagnostic) : String :=
  match d.word with
  | some word =>
    "word " ++ toString d.position ++ " (" ++ word.hexPadded ++ "): " ++ d.cause.message
  | none => "word " ++ toString d.position ++ ": " ++ d.cause.message

end Spirv

import Spirv.Operand

/-!
# Instructions

* `Instruction`: an instruction that has been read.
* `Instruction.result`, `Instruction.arguments`: its operands, the result id apart.
* `Instruction.read`: reads the instruction at the start of some words.
* `Instruction.render`: its line of the disassembly.
-/

namespace Spirv

/-- An instruction that has been read. -/
structure Instruction where
  opcode : Opcode
  /-- The index of its first word in the module. -/
  position : Nat
  /-- The declared number of words, the first word included. -/
  wordCount : Nat
  /-- The position of the result id among the operands, if the opcode has one. -/
  resultIndex : Option Nat
  /-- All operands in the order in which they are encoded. -/
  operands : List Operand
deriving DecidableEq

namespace Instruction

/-- The number of words that the instruction and its operands really took. -/
def taken (i : Instruction) : Nat := (i.operands.flatMap Operand.words).length + 1

/-- The operand that is the result id. -/
def result (i : Instruction) : Option Operand := i.resultIndex.bind (i.operands[·]?)

/-- The operands in order, the result id excluded. -/
def arguments (i : Instruction) : List Operand :=
  match i.resultIndex with
  | none => i.operands
  | some index => i.operands.eraseIdx index

/-- Reads the instruction at the start of `words`, which stand at `position` of a module in the
given order. The second component is the extended instruction set that is selected after it. -/
def read (g : Grammar) (order : ByteOrder) (imported : Option ExtInstSet) (position : Nat)
    (words : List Word) : Except Diagnostic (Instruction × Option ExtInstSet) :=
  match words with
  | [] => .error ⟨position, none, .missingInstruction⟩
  | word :: rest =>
    let first := order.fix word
    match g.opcode first.opcodeNumber with
    | none => .error ⟨position, some first, .unknownOpcode first.opcodeNumber⟩
    | some f =>
      if first.wordCount < f.minWordCount then
        .error ⟨position, some first, .tooFewWords f.opcode first.wordCount f.minWordCount⟩
      else
        let truncated : Diagnostic := ⟨position, some first, .truncatedInstruction f.opcode⟩
        match Operand.readAll g order f truncated (first.wordCount - 1) (position + 1) rest
            { imported } with
        | .error d => .error d
        | .ok p =>
          .ok (⟨f.opcode, position, first.wordCount, f.resultIndex, p.done.toList⟩, p.imported)

/-- The line of an instruction: `%result = OpName operand operand`. -/
def render (p : Palette) (i : Instruction) : String :=
  let result :=
    match i.result with
    | none => ""
    | some o => o.fragment.render p ++ " = "
  result ++ i.opcode.mnemonic ++ String.join (i.arguments.map fun o => " " ++ o.fragment.render p)

end Instruction

end Spirv

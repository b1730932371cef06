import Spirv.ExtInstSet
import Spirv.Grammar.Enumerant
import Spirv.Opcode

/-!
# Grammars

What reading a module has to know about its instructions. Reading consults a grammar only through
the five look-ups of `Grammar`, so any other grammar can take the place of the built-in one.

* `Format`: the operands of an opcode; `Format.kindAt?` is the kind of the operand at a position.
* `Grammar`: the look-ups.
* `Grammar.core`: SPIR-V 1.0 with the sets `GLSL.std.450` and `OpenCL.std`.
-/

namespace Spirv

/-! ## Operand layout -/

/-- The operands that an opcode takes. -/
structure Format where
  opcode : Opcode
  /-- The smallest legal word count, the first word included. -/
  minWordCount : Nat
  /-- The kinds of the operands at fixed positions. Those past the smallest word count are optional,
  and the last kind repeats for operand lists of variable length. -/
  fixed : List OperandKind
deriving DecidableEq

namespace Format

/-- The position of the result id among the operands, if the instruction defines one. -/
def resultIndex (f : Format) : Option Nat := f.fixed.findIdx? (· == .resultId)

/-- The kind of the operand at position `index`, which counts from 0.

The fixed positions come first. An enumerant with parameters that stands at one of them, which is
`active`, decides about the positions behind them all: these take its parameters and no more.
Otherwise opcodes that read pairs alternate between their last two kinds, and all others repeat the
last one. -/
def kindAt? (f : Format) (active : Option Enumerant) (index : Nat) : Option OperandKind :=
  let past := index - f.fixed.length
  if index < f.fixed.length then f.fixed[index]?
  else match active with
    | some enumerant => enumerant.parameters[past]?
    | none =>
      if f.opcode.readsPairs && 2 ≤ f.fixed.length then
        f.fixed[f.fixed.length - 2 + past % 2]?
      else f.fixed.getLast?

end Format

/-! ## Grammars -/

/-- What is known about the instructions of a module. -/
structure Grammar where
  /-- The format of the opcode with the given number. -/
  opcode : UInt16 → Option Format
  /-- The enumerant of a kind with the given value. -/
  enumerant : OperandKind → Word → Option Enumerant
  /-- The extended instruction set that is imported under the given name. -/
  extInstSet : String → Option ExtInstSet
  /-- The name of an extended instruction. -/
  extInst : ExtInstSet → Word → Option String
  /-- The name of the tool that made a module. -/
  generator : Word → String

namespace Grammar

/-- The names of the registered generators. -/
def generatorName (generator : Word) : String :=
  match generator.toNat with
  | 0 => "Khronos"
  | 1 => "LunarG"
  | 2 => "Valve"
  | 3 => "Codeplay"
  | 4 => "NVIDIA"
  | 5 => "ARM"
  | 6 => "Khronos LLVM/SPIR-V Translator"
  | 7 => "Khronos SPIR-V Tools Assembler"
  | 8 => "Khronos Glslang Reference Front End"
  | 9 => "Qualcomm"
  | 10 => "AMD"
  | 11 => "Intel"
  | _ => "Unknown"

/-- The format of an opcode in the core grammar. -/
def coreFormat (o : Opcode) : Format := ⟨o, o.spec.minWordCount, o.spec.operands⟩

/-- The SPIR-V 1.0 core grammar. -/
def core : Grammar where
  opcode number := (Opcode.ofCode? number).map coreFormat
  enumerant kind value := kind.enumerants.find? (·.value == value)
  extInstSet := ExtInstSet.ofName?
  extInst := ExtInstSet.instructionName?
  generator := generatorName

end Grammar

end Spirv

/-!
# Operand kinds

* `OperandKind`: the semantic category of an operand, which decides how its words are read.
* `OperandKind.describe`: the name of a kind in messages.
* `OperandKind.isEnumerated`: the kinds that are one word, looked up among the kind's enumerants.
-/

namespace Spirv

/-- The semantic category of an operand. -/
inductive OperandKind where
  /-- A reference to an id. -/
  | id
  /-- The id that the instruction defines. -/
  | resultId
  /-- A number. -/
  | literal
  /-- A number, which names an extended instruction when it belongs to `OpExtInst`. -/
  | literalNumber
  /-- A nul terminated string, packed four bytes to a word. -/
  | literalString
  -- The enumerated kinds: one word each, which is the value of an enumerant.
  | capability | sourceLanguage | executionModel | addressingModel | memoryModel | executionMode
  | storageClass | dimensionality | samplerAddressingMode | samplerFilterMode | imageFormat
  | imageOperands | fpFastMathMode | fpRoundingMode | linkageType | accessQualifier
  | functionParameterAttribute | decoration | builtIn | selectionControl | loopControl
  | functionControl | memorySemantics | memoryAccess | executionScope | groupOperation
  | kernelEnqueueFlags | kernelProfilingInfo
deriving DecidableEq

namespace OperandKind

/-- The name of a kind in messages. -/
def describe : OperandKind → String
  | id => "id"
  | resultId => "result id"
  | literal => "literal"
  | literalNumber => "literal number"
  | literalString => "literal string"
  | capability => "capability"
  | sourceLanguage => "source language"
  | executionModel => "execution model"
  | addressingModel => "addressing model"
  | memoryModel => "memory model"
  | executionMode => "execution mode"
  | storageClass => "storage class"
  | dimensionality => "dimensionality"
  | samplerAddressingMode => "sampler addressing mode"
  | samplerFilterMode => "sampler filter mode"
  | imageFormat => "image format"
  | imageOperands => "image operands"
  | fpFastMathMode => "floating-point fast math mode"
  | fpRoundingMode => "floating-point rounding mode"
  | linkageType => "linkage type"
  | accessQualifier => "access qualifier"
  | functionParameterAttribute => "function parameter attribute"
  | decoration => "decoration"
  | builtIn => "built-in"
  | selectionControl => "selection control"
  | loopControl => "loop control"
  | functionControl => "function control"
  | memorySemantics => "memory semantics"
  | memoryAccess => "memory access"
  | executionScope => "execution scope"
  | groupOperation => "group operation"
  | kernelEnqueueFlags => "kernel enqueue flags"
  | kernelProfilingInfo => "kernel profiling info"

/-- Whether the operands of this kind are values of enumerants. -/
def isEnumerated : OperandKind → Bool
  | id | resultId | literal | literalNumber | literalString => false
  | _ => true

end OperandKind

end Spirv

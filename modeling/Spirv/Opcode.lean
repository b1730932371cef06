import Spirv.OperandKind

/-!
# Opcodes

The opcodes of the SPIR-V 1.0 core grammar and what the grammar says about each of them.

* `Opcode`: one constructor per opcode, spelled like its mnemonic.
* `Opcode.Spec`, `Opcode.spec`: number, name, smallest word count and operand kinds of an opcode,
  one row per opcode.
* `Opcode.ofCode?`, `Opcode.ofName?`: the opcode with a given number or name.
-/

namespace Spirv

/-- An opcode of the SPIR-V 1.0 core grammar. -/
inductive Opcode where
  -- Miscellaneous and debug
  | opNop | opUndef | opSourceContinued | opSource | opSourceExtension | opName | opMemberName
  | opString | opLine | opExtension | opExtInstImport | opExtInst | opMemoryModel | opEntryPoint
  | opExecutionMode | opCapability
  -- Types
  | opTypeVoid | opTypeBool | opTypeInt | opTypeFloat | opTypeVector | opTypeMatrix | opTypeImage
  | opTypeSampler | opTypeSampledImage | opTypeArray | opTypeRuntimeArray | opTypeStruct
  | opTypeOpaque | opTypePointer | opTypeFunction | opTypeEvent | opTypeDeviceEvent
  | opTypeReserveId | opTypeQueue | opTypePipe | opTypeForwardPointer
  -- Constants
  | opConstantTrue | opConstantFalse | opConstant | opConstantComposite | opConstantSampler
  | opConstantNull | opSpecConstantTrue | opSpecConstantFalse | opSpecConstant
  | opSpecConstantComposite | opSpecConstantOp
  -- Functions
  | opFunction | opFunctionParameter | opFunctionEnd | opFunctionCall
  -- Memory
  | opVariable | opImageTexelPointer | opLoad | opStore | opCopyMemory | opCopyMemorySized
  | opAccessChain | opInBoundsAccessChain | opPtrAccessChain | opArrayLength
  | opGenericPtrMemSemantics | opInBoundsPtrAccessChain
  -- Annotations
  | opDecorate | opMemberDecorate | opDecorationGroup | opGroupDecorate | opGroupMemberDecorate
  -- Composites
  | opVectorExtractDynamic | opVectorInsertDynamic | opVectorShuffle | opCompositeConstruct
  | opCompositeExtract | opCompositeInsert | opCopyObject | opTranspose
  -- Images
  | opSampledImage | opImageSampleImplicitLod | opImageSampleExplicitLod
  | opImageSampleDrefImplicitLod | opImageSampleDrefExplicitLod | opImageSampleProjImplicitLod
  | opImageSampleProjExplicitLod | opImageSampleProjDrefImplicitLod
  | opImageSampleProjDrefExplicitLod | opImageFetch | opImageGather | opImageDrefGather
  | opImageRead | opImageWrite | opImage | opImageQueryFormat | opImageQueryOrder
  | opImageQuerySizeLod | opImageQuerySize | opImageQueryLod | opImageQueryLevels
  | opImageQuerySamples
  -- Conversions
  | opConvertFToU | opConvertFToS | opConvertSToF | opConvertUToF | opUConvert | opSConvert
  | opFConvert | opQuantizeToF16 | opConvertPtrToU | opSatConvertSToU | opSatConvertUToS
  | opConvertUToPtr | opPtrCastToGeneric | opGenericCastToPtr | opGenericCastToPtrExplicit
  | opBitcast
  -- Arithmetic
  | opSNegate | opFNegate | opIAdd | opFAdd | opISub | opFSub | opIMul | opFMul | opUDiv | opSDiv
  | opFDiv | opUMod | opSRem | opSMod | opFRem | opFMod | opVectorTimesScalar
  | opMatrixTimesScalar | opVectorTimesMatrix | opMatrixTimesVector | opMatrixTimesMatrix
  | opOuterProduct | opDot | opIAddCarry | opISubBorrow | opUMulExtended | opSMulExtended
  -- Relational and logical
  | opAny | opAll | opIsNan | opIsInf | opIsFinite | opIsNormal | opSignBitSet | opLessOrGreater
  | opOrdered | opUnordered | opLogicalEqual | opLogicalNotEqual | opLogicalOr | opLogicalAnd
  | opLogicalNot | opSelect | opIEqual | opINotEqual | opUGreaterThan | opSGreaterThan
  | opUGreaterThanEqual | opSGreaterThanEqual | opULessThan | opSLessThan | opULessThanEqual
  | opSLessThanEqual | opFOrdEqual | opFUnordEqual | opFOrdNotEqual | opFUnordNotEqual
  | opFOrdLessThan | opFUnordLessThan | opFOrdGreaterThan | opFUnordGreaterThan
  | opFOrdLessThanEqual | opFUnordLessThanEqual | opFOrdGreaterThanEqual
  | opFUnordGreaterThanEqual
  -- Bit
  | opShiftRightLogical | opShiftRightArithmetic | opShiftLeftLogical | opBitwiseOr
  | opBitwiseXor | opBitwiseAnd | opNot | opBitFieldInsert | opBitFieldSExtract
  | opBitFieldUExtract | opBitReverse | opBitCount
  -- Derivatives
  | opDPdx | opDPdy | opFwidth | opDPdxFine | opDPdyFine | opFwidthFine | opDPdxCoarse
  | opDPdyCoarse | opFwidthCoarse
  -- Primitives
  | opEmitVertex | opEndPrimitive | opEmitStreamVertex | opEndStreamPrimitive
  -- Barriers and atomics
  | opControlBarrier | opMemoryBarrier | opAtomicLoad | opAtomicStore | opAtomicExchange
  | opAtomicCompareExchange | opAtomicCompareExchangeWeak | opAtomicIIncrement
  | opAtomicIDecrement | opAtomicIAdd | opAtomicISub | opAtomicSMin | opAtomicUMin | opAtomicSMax
  | opAtomicUMax | opAtomicAnd | opAtomicOr | opAtomicXor
  -- Control flow
  | opPhi | opLoopMerge | opSelectionMerge | opLabel | opBranch | opBranchConditional | opSwitch
  | opKill | opReturn | opReturnValue | opUnreachable | opLifetimeStart | opLifetimeStop
  -- Groups
  | opGroupAsyncCopy | opGroupWaitEvents | opGroupAll | opGroupAny | opGroupBroadcast
  | opGroupIAdd | opGroupFAdd | opGroupFMin | opGroupUMin | opGroupSMin | opGroupFMax
  | opGroupUMax | opGroupSMax
  -- Pipes
  | opReadPipe | opWritePipe | opReservedReadPipe | opReservedWritePipe
  | opReserveReadPipePackets | opReserveWritePipePackets | opCommitReadPipe | opCommitWritePipe
  | opIsValidReserveId | opGetNumPipePackets | opGetMaxPipePackets
  | opGroupReserveReadPipePackets | opGroupReserveWritePipePackets | opGroupCommitReadPipe
  | opGroupCommitWritePipe
  -- Device side enqueue
  | opEnqueueMarker | opEnqueueKernel | opGetKernelNDrangeSubGroupCount
  | opGetKernelNDrangeMaxSubGroupSize | opGetKernelWorkGroupSize
  | opGetKernelPreferredWorkGroupSizeMultiple | opRetainEvent | opReleaseEvent
  | opCreateUserEvent | opIsValidEvent | opSetUserEventStatus | opCaptureEventProfilingInfo
  | opGetDefaultQueue | opBuildNDRange
  -- Sparse images
  | opImageSparseSampleImplicitLod | opImageSparseSampleExplicitLod
  | opImageSparseSampleDrefImplicitLod | opImageSparseSampleDrefExplicitLod
  | opImageSparseSampleProjImplicitLod | opImageSparseSampleProjExplicitLod
  | opImageSparseSampleProjDrefImplicitLod | opImageSparseSampleProjDrefExplicitLod
  | opImageSparseFetch | opImageSparseGather | opImageSparseDrefGather
  | opImageSparseTexelsResident | opNoLine | opAtomicFlagTestAndSet | opAtomicFlagClear
  | opImageSparseRead
deriving DecidableEq

namespace Opcode

/-- What the core grammar says about an opcode. -/
structure Spec where
  /-- The number that stands in the low half of an instruction's first word. -/
  code : UInt16
  /-- The name without the `Op` that the mnemonic puts before it. -/
  name : String
  /-- The smallest legal word count, the first word included. -/
  minWordCount : Nat
  /-- The kinds of the operands at fixed positions. -/
  operands : List OperandKind

/-- The row of each opcode. Numbers that no row has are left unassigned by SPIR-V 1.0. -/
def spec : Opcode → Spec
  -- Miscellaneous and debug
  | opNop => ⟨0, "Nop", 1, []⟩
  | opUndef => ⟨1, "Undef", 3, [.id, .resultId]⟩
  | opSourceContinued => ⟨2, "SourceContinued", 2, [.literalString]⟩
  | opSource => ⟨3, "Source", 3, [.sourceLanguage, .literal, .id, .literalString]⟩
  | opSourceExtension => ⟨4, "SourceExtension", 2, [.literalString]⟩
  | opName => ⟨5, "Name", 3, [.id, .literalString]⟩
  | opMemberName => ⟨6, "MemberName", 4, [.id, .literal, .literalString]⟩
  | opString => ⟨7, "String", 3, [.resultId, .literalString]⟩
  | opLine => ⟨8, "Line", 4, [.id, .literal, .literal]⟩
  | opExtension => ⟨10, "Extension", 2, [.literalString]⟩
  | opExtInstImport => ⟨11, "ExtInstImport", 3, [.resultId, .literalString]⟩
  | opExtInst => ⟨12, "ExtInst", 5, [.id, .resultId, .id, .literalNumber, .id]⟩
  | opMemoryModel => ⟨14, "MemoryModel", 3, [.addressingModel, .memoryModel]⟩
  | opEntryPoint => ⟨15, "EntryPoint", 4, [.executionModel, .id, .literalString, .id]⟩
  | opExecutionMode => ⟨16, "ExecutionMode", 3, [.id, .executionMode]⟩
  | opCapability => ⟨17, "Capability", 2, [.capability]⟩
  -- Types
  | opTypeVoid => ⟨19, "TypeVoid", 2, [.resultId]⟩
  | opTypeBool => ⟨20, "TypeBool", 2, [.resultId]⟩
  | opTypeInt => ⟨21, "TypeInt", 4, [.resultId, .literal, .literal]⟩
  | opTypeFloat => ⟨22, "TypeFloat", 3, [.resultId, .literal]⟩
  | opTypeVector => ⟨23, "TypeVector", 4, [.resultId, .id, .literal]⟩
  | opTypeMatrix => ⟨24, "TypeMatrix", 4, [.resultId, .id, .literal]⟩
  | opTypeImage => ⟨25, "TypeImage", 9,
      [.resultId, .id, .dimensionality, .literal, .literal, .literal, .literal, .imageFormat,
      .accessQualifier]⟩
  | opTypeSampler => ⟨26, "TypeSampler", 2, [.resultId]⟩
  | opTypeSampledImage => ⟨27, "TypeSampledImage", 3, [.resultId, .id]⟩
  | opTypeArray => ⟨28, "TypeArray", 4, [.resultId, .id, .id]⟩
  | opTypeRuntimeArray => ⟨29, "TypeRuntimeArray", 3, [.resultId, .id]⟩
  | opTypeStruct => ⟨30, "TypeStruct", 2, [.resultId, .id]⟩
  | opTypeOpaque => ⟨31, "TypeOpaque", 3, [.resultId, .literalString]⟩
  | opTypePointer => ⟨32, "TypePointer", 4, [.resultId, .storageClass, .id]⟩
  | opTypeFunction => ⟨33, "TypeFunction", 3, [.resultId, .id, .id]⟩
  | opTypeEvent => ⟨34, "TypeEvent", 2, [.resultId]⟩
  | opTypeDeviceEvent => ⟨35, "TypeDeviceEvent", 2, [.resultId]⟩
  | opTypeReserveId => ⟨36, "TypeReserveId", 2, [.resultId]⟩
  | opTypeQueue => ⟨37, "TypeQueue", 2, [.resultId]⟩
  | opTypePipe => ⟨38, "TypePipe", 3, [.resultId, .accessQualifier]⟩
  | opTypeForwardPointer => ⟨39, "TypeForwardPointer", 3, [.id, .storageClass]⟩
  -- Constants
  | opConstantTrue => ⟨41, "ConstantTrue", 3, [.id, .resultId]⟩
  | opConstantFalse => ⟨42, "ConstantFalse", 3, [.id, .resultId]⟩
  | opConstant => ⟨43, "Constant", 4, [.id, .resultId, .literal]⟩
  | opConstantComposite => ⟨44, "ConstantComposite", 3, [.id, .resultId, .id]⟩
  | opConstantSampler => ⟨45, "ConstantSampler", 6,
      [.id, .resultId, .samplerAddressingMode, .literal, .samplerFilterMode]⟩
  | opConstantNull => ⟨46, "ConstantNull", 3, [.id, .resultId]⟩
  | opSpecConstantTrue => ⟨48, "SpecConstantTrue", 3, [.id, .resultId]⟩
  | opSpecConstantFalse => ⟨49, "SpecConstantFalse", 3, [.id, .resultId]⟩
  | opSpecConstant => ⟨50, "SpecConstant", 4, [.id, .resultId, .literal]⟩
  | opSpecConstantComposite => ⟨51, "SpecConstantComposite", 3, [.id, .resultId, .id]⟩
  | opSpecConstantOp => ⟨52, "SpecConstantOp", 4, [.id, .resultId, .literal, .id]⟩
  -- Functions
  | opFunction => ⟨54, "Function", 5, [.id, .resultId, .functionControl, .id]⟩
  | opFunctionParameter => ⟨55, "FunctionParameter", 3, [.id, .resultId]⟩
  | opFunctionEnd => ⟨56, "FunctionEnd", 1, []⟩
  | opFunctionCall => ⟨57, "FunctionCall", 4, [.id, .resultId, .id, .id]⟩
  -- Memory
  | opVariable => ⟨59, "Variable", 4, [.id, .resultId, .storageClass, .id]⟩
  | opImageTexelPointer => ⟨60, "ImageTexelPointer", 6, [.id, .resultId, .id, .id, .id]⟩
  | opLoad => ⟨61, "Load", 4, [.id, .resultId, .id, .memoryAccess]⟩
  | opStore => ⟨62, "Store", 3, [.id, .id, .memoryAccess]⟩
  | opCopyMemory => ⟨63, "CopyMemory", 3, [.id, .id, .memoryAccess]⟩
  | opCopyMemorySized => ⟨64, "CopyMemorySized", 4, [.id, .id, .id, .memoryAccess]⟩
  | opAccessChain => ⟨65, "AccessChain", 4, [.id, .resultId, .id, .id]⟩
  | opInBoundsAccessChain => ⟨66, "InBoundsAccessChain", 4, [.id, .resultId, .id, .id]⟩
  | opPtrAccessChain => ⟨67, "PtrAccessChain", 5, [.id, .resultId, .id, .id, .id]⟩
  | opArrayLength => ⟨68, "ArrayLength", 5, [.id, .resultId, .id, .literal]⟩
  | opGenericPtrMemSemantics => ⟨69, "GenericPtrMemSemantics", 4, [.id, .resultId, .id]⟩
  | opInBoundsPtrAccessChain => ⟨70, "InBoundsPtrAccessChain", 5, [.id, .resultId, .id, .id, .id]⟩
  -- Annotations
  | opDecorate => ⟨71, "Decorate", 3, [.id, .decoration]⟩
  | opMemberDecorate => ⟨72, "MemberDecorate", 4, [.id, .literal, .decoration]⟩
  | opDecorationGroup => ⟨73, "DecorationGroup", 2, [.resultId]⟩
  | opGroupDecorate => ⟨74, "GroupDecorate", 2, [.id, .id]⟩
  | opGroupMemberDecorate => ⟨75, "GroupMemberDecorate", 2, [.id, .id, .literal]⟩
  -- Composites
  | opVectorExtractDynamic => ⟨77, "VectorExtractDynamic", 5, [.id, .resultId, .id, .id]⟩
  | opVectorInsertDynamic => ⟨78, "VectorInsertDynamic", 6, [.id, .resultId, .id, .id, .id]⟩
  | opVectorShuffle => ⟨79, "VectorShuffle", 5, [.id, .resultId, .id, .id, .literal]⟩
  | opCompositeConstruct => ⟨80, "CompositeConstruct", 3, [.id, .resultId, .id]⟩
  | opCompositeExtract => ⟨81, "CompositeExtract", 4, [.id, .resultId, .id, .literal]⟩
  | opCompositeInsert => ⟨82, "CompositeInsert", 5, [.id, .resultId, .id, .id, .literal]⟩
  | opCopyObject => ⟨83, "CopyObject", 4, [.id, .resultId, .id]⟩
  | opTranspose => ⟨84, "Transpose", 4, [.id, .resultId, .id]⟩
  -- Images
  | opSampledImage => ⟨86, "SampledImage", 5, [.id, .resultId, .id, .id]⟩
  | opImageSampleImplicitLod => ⟨87, "ImageSampleImplicitLod", 5,
      [.id, .resultId, .id, .id, .imageOperands]⟩
  | opImageSampleExplicitLod => ⟨88, "ImageSampleExplicitLod", 7,
      [.id, .resultId, .id, .id, .imageOperands]⟩
  | opImageSampleDrefImplicitLod => ⟨89, "ImageSampleDrefImplicitLod", 6,
      [.id, .resultId, .id, .id, .id, .imageOperands]⟩
  | opImageSampleDrefExplicitLod => ⟨90, "ImageSampleDrefExplicitLod", 8,
      [.id, .resultId, .id, .id, .id, .imageOperands]⟩
  | opImageSampleProjImplicitLod => ⟨91, "ImageSampleProjImplicitLod", 5,
      [.id, .resultId, .id, .id, .imageOperands]⟩
  | opImageSampleProjExplicitLod => ⟨92, "ImageSampleProjExplicitLod", 7,
      [.id, .resultId, .id, .id, .imageOperands]⟩
  | opImageSampleProjDrefImplicitLod => ⟨93, "ImageSampleProjDrefImplicitLod", 6,
      [.id, .resultId, .id, .id, .id, .imageOperands]⟩
  | opImageSampleProjDrefExplicitLod => ⟨94, "ImageSampleProjDrefExplicitLod", 8,
      [.id, .resultId, .id, .id, .id, .imageOperands]⟩
  | opImageFetch => ⟨95, "ImageFetch", 5, [.id, .resultId, .id, .id, .imageOperands]⟩
  | opImageGather => ⟨96, "ImageGather", 6, [.id, .resultId, .id, .id, .id, .imageOperands]⟩
  | opImageDrefGather => ⟨97, "ImageDrefGather", 6, [.id, .resultId, .id, .id, .id, .imageOperands]⟩
  | opImageRead => ⟨98, "ImageRead", 5, [.id, .resultId, .id, .id, .imageOperands]⟩
  | opImageWrite => ⟨99, "ImageWrite", 4, [.id, .id, .id, .imageOperands]⟩
  | opImage => ⟨100, "Image", 4, [.id, .resultId, .id]⟩
  | opImageQueryFormat => ⟨101, "ImageQueryFormat", 4, [.id, .resultId, .id]⟩
  | opImageQueryOrder => ⟨102, "ImageQueryOrder", 4, [.id, .resultId, .id]⟩
  | opImageQuerySizeLod => ⟨103, "ImageQuerySizeLod", 5, [.id, .resultId, .id, .id]⟩
  | opImageQuerySize => ⟨104, "ImageQuerySize", 4, [.id, .resultId, .id]⟩
  | opImageQueryLod => ⟨105, "ImageQueryLod", 5, [.id, .resultId, .id, .id]⟩
  | opImageQueryLevels => ⟨106, "ImageQueryLevels", 4, [.id, .resultId, .id]⟩
  | opImageQuerySamples => ⟨107, "ImageQuerySamples", 4, [.id, .resultId, .id]⟩
  -- Conversions
  | opConvertFToU => ⟨109, "ConvertFToU", 4, [.id, .resultId, .id]⟩
  | opConvertFToS => ⟨110, "ConvertFToS", 4, [.id, .resultId, .id]⟩
  | opConvertSToF => ⟨111, "ConvertSToF", 4, [.id, .resultId, .id]⟩
  | opConvertUToF => ⟨112, "ConvertUToF", 4, [.id, .resultId, .id]⟩
  | opUConvert => ⟨113, "UConvert", 4, [.id, .resultId, .id]⟩
  | opSConvert => ⟨114, "SConvert", 4, [.id, .resultId, .id]⟩
  | opFConvert => ⟨115, "FConvert", 4, [.id, .resultId, .id]⟩
  | opQuantizeToF16 => ⟨116, "QuantizeToF16", 4, [.id, .resultId, .id]⟩
  | opConvertPtrToU => ⟨117, "ConvertPtrToU", 4, [.id, .resultId, .id]⟩
  | opSatConvertSToU => ⟨118, "SatConvertSToU", 4, [.id, .resultId, .id]⟩
  | opSatConvertUToS => ⟨119, "SatConvertUToS", 4, [.id, .resultId, .id]⟩
  | opConvertUToPtr => ⟨120, "ConvertUToPtr", 4, [.id, .resultId, .id]⟩
  | opPtrCastToGeneric => ⟨121, "PtrCastToGeneric", 4, [.id, .resultId, .id]⟩
  | opGenericCastToPtr => ⟨122, "GenericCastToPtr", 4, [.id, .resultId, .id]⟩
  | opGenericCastToPtrExplicit => ⟨123, "GenericCastToPtrExplicit", 5,
      [.id, .resultId, .id, .storageClass]⟩
  | opBitcast => ⟨124, "Bitcast", 4, [.id, .resultId, .id]⟩
  -- Arithmetic
  | opSNegate => ⟨126, "SNegate", 4, [.id, .resultId, .id]⟩
  | opFNegate => ⟨127, "FNegate", 4, [.id, .resultId, .id]⟩
  | opIAdd => ⟨128, "IAdd", 5, [.id, .resultId, .id, .id]⟩
  | opFAdd => ⟨129, "FAdd", 5, [.id, .resultId, .id, .id]⟩
  | opISub => ⟨130, "ISub", 5, [.id, .resultId, .id, .id]⟩
  | opFSub => ⟨131, "FSub", 5, [.id, .resultId, .id, .id]⟩
  | opIMul => ⟨132, "IMul", 5, [.id, .resultId, .id, .id]⟩
  | opFMul => ⟨133, "FMul", 5, [.id, .resultId, .id, .id]⟩
  | opUDiv => ⟨134, "UDiv", 5, [.id, .resultId, .id, .id]⟩
  | opSDiv => ⟨135, "SDiv", 5, [.id, .resultId, .id, .id]⟩
  | opFDiv => ⟨136, "FDiv", 5, [.id, .resultId, .id, .id]⟩
  | opUMod => ⟨137, "UMod", 5, [.id, .resultId, .id, .id]⟩
  | opSRem => ⟨138, "SRem", 5, [.id, .resultId, .id, .id]⟩
  | opSMod => ⟨139, "SMod", 5, [.id, .resultId, .id, .id]⟩
  | opFRem => ⟨140, "FRem", 5, [.id, .resultId, .id, .id]⟩
  | opFMod => ⟨141, "FMod", 5, [.id, .resultId, .id, .id]⟩
  | opVectorTimesScalar => ⟨142, "VectorTimesScalar", 5, [.id, .resultId, .id, .id]⟩
  | opMatrixTimesScalar => ⟨143, "MatrixTimesScalar", 5, [.id, .resultId, .id, .id]⟩
  | opVectorTimesMatrix => ⟨144, "VectorTimesMatrix", 5, [.id, .resultId, .id, .id]⟩
  | opMatrixTimesVector => ⟨145, "MatrixTimesVector", 5, [.id, .resultId, .id, .id]⟩
  | opMatrixTimesMatrix => ⟨146, "MatrixTimesMatrix", 5, [.id, .resultId, .id, .id]⟩
  | opOuterProduct => ⟨147, "OuterProduct", 5, [.id, .resultId, .id, .id]⟩
  | opDot => ⟨148, "Dot", 5, [.id, .resultId, .id, .id]⟩
  | opIAddCarry => ⟨149, "IAddCarry", 5, [.id, .resultId, .id, .id]⟩
  | opISubBorrow => ⟨150, "ISubBorrow", 5, [.id, .resultId, .id, .id]⟩
  | opUMulExtended => ⟨151, "UMulExtended", 5, [.id, .resultId, .id, .id]⟩
  | opSMulExtended => ⟨152, "SMulExtended", 5, [.id, .resultId, .id, .id]⟩
  -- Relational and logical
  | opAny => ⟨154, "Any", 4, [.id, .resultId, .id]⟩
  | opAll => ⟨155, "All", 4, [.id, .resultId, .id]⟩
  | opIsNan => ⟨156, "IsNan", 4, [.id, .resultId, .id]⟩
  | opIsInf => ⟨157, "IsInf", 4, [.id, .resultId, .id]⟩
  | opIsFinite => ⟨158, "IsFinite", 4, [.id, .resultId, .id]⟩
  | opIsNormal => ⟨159, "IsNormal", 4, [.id, .resultId, .id]⟩
  | opSignBitSet => ⟨160, "SignBitSet", 4, [.id, .resultId, .id]⟩
  | opLessOrGreater => ⟨161, "LessOrGreater", 5, [.id, .resultId, .id, .id]⟩
  | opOrdered => ⟨162, "Ordered", 5, [.id, .resultId, .id, .id]⟩
  | opUnordered => ⟨163, "Unordered", 5, [.id, .resultId, .id, .id]⟩
  | opLogicalEqual => ⟨164, "LogicalEqual", 5, [.id, .resultId, .id, .id]⟩
  | opLogicalNotEqual => ⟨165, "LogicalNotEqual", 5, [.id, .resultId, .id, .id]⟩
  | opLogicalOr => ⟨166, "LogicalOr", 5, [.id, .resultId, .id, .id]⟩
  | opLogicalAnd => ⟨167, "LogicalAnd", 5, [.id, .resultId, .id, .id]⟩
  | opLogicalNot => ⟨168, "LogicalNot", 4, [.id, .resultId, .id]⟩
  | opSelect => ⟨169, "Select", 6, [.id, .resultId, .id, .id, .id]⟩
  | opIEqual => ⟨170, "IEqual", 5, [.id, .resultId, .id, .id]⟩
  | opINotEqual => ⟨171, "INotEqual", 5, [.id, .resultId, .id, .id]⟩
  | opUGreaterThan => ⟨172, "UGreaterThan", 5, [.id, .resultId, .id, .id]⟩
  | opSGreaterThan => ⟨173, "SGreaterThan", 5, [.id, .resultId, .id, .id]⟩
  | opUGreaterThanEqual => ⟨174, "UGreaterThanEqual", 5, [.id, .resultId, .id, .id]⟩
  | opSGreaterThanEqual => ⟨175, "SGreaterThanEqual", 5, [.id, .resultId, .id, .id]⟩
  | opULessThan => ⟨176, "ULessThan", 5, [.id, .resultId, .id, .id]⟩
  | opSLessThan => ⟨177, "SLessThan", 5, [.id, .resultId, .id, .id]⟩
  | opULessThanEqual => ⟨178, "ULessThanEqual", 5, [.id, .resultId, .id, .id]⟩
  | opSLessThanEqual => ⟨179, "SLessThanEqual", 5, [.id, .resultId, .id, .id]⟩
  | opFOrdEqual => ⟨180, "FOrdEqual", 5, [.id, .resultId, .id, .id]⟩
  | opFUnordEqual => ⟨181, "FUnordEqual", 5, [.id, .resultId, .id, .id]⟩
  | opFOrdNotEqual => ⟨182, "FOrdNotEqual", 5, [.id, .resultId, .id, .id]⟩
  | opFUnordNotEqual => ⟨183, "FUnordNotEqual", 5, [.id, .resultId, .id, .id]⟩
  | opFOrdLessThan => ⟨184, "FOrdLessThan", 5, [.id, .resultId, .id, .id]⟩
  | opFUnordLessThan => ⟨185, "FUnordLessThan", 5, [.id, .resultId, .id, .id]⟩
  | opFOrdGreaterThan => ⟨186, "FOrdGreaterThan", 5, [.id, .resultId, .id, .id]⟩
  | opFUnordGreaterThan => ⟨187, "FUnordGreaterThan", 5, [.id, .resultId, .id, .id]⟩
  | opFOrdLessThanEqual => ⟨188, "FOrdLessThanEqual", 5, [.id, .resultId, .id, .id]⟩
  | opFUnordLessThanEqual => ⟨189, "FUnordLessThanEqual", 5, [.id, .resultId, .id, .id]⟩
  | opFOrdGreaterThanEqual => ⟨190, "FOrdGreaterThanEqual", 5, [.id, .resultId, .id, .id]⟩
  | opFUnordGreaterThanEqual => ⟨191, "FUnordGreaterThanEqual", 5, [.id, .resultId, .id, .id]⟩
  -- Bit
  | opShiftRightLogical => ⟨194, "ShiftRightLogical", 5, [.id, .resultId, .id, .id]⟩
  | opShiftRightArithmetic => ⟨195, "ShiftRightArithmetic", 5, [.id, .resultId, .id, .id]⟩
  | opShiftLeftLogical => ⟨196, "ShiftLeftLogical", 5, [.id, .resultId, .id, .id]⟩
  | opBitwiseOr => ⟨197, "BitwiseOr", 5, [.id, .resultId, .id, .id]⟩
  | opBitwiseXor => ⟨198, "BitwiseXor", 5, [.id, .resultId, .id, .id]⟩
  | opBitwiseAnd => ⟨199, "BitwiseAnd", 5, [.id, .resultId, .id, .id]⟩
  | opNot => ⟨200, "Not", 4, [.id, .resultId, .id]⟩
  | opBitFieldInsert => ⟨201, "BitFieldInsert", 7, [.id, .resultId, .id, .id, .id, .id]⟩
  | opBitFieldSExtract => ⟨202, "BitFieldSExtract", 6, [.id, .resultId, .id, .id, .id]⟩
  | opBitFieldUExtract => ⟨203, "BitFieldUExtract", 6, [.id, .resultId, .id, .id, .id]⟩
  | opBitReverse => ⟨204, "BitReverse", 4, [.id, .resultId, .id]⟩
  | opBitCount => ⟨205, "BitCount", 4, [.id, .resultId, .id]⟩
  -- Derivatives
  | opDPdx => ⟨207, "DPdx", 4, [.id, .resultId, .id]⟩
  | opDPdy => ⟨208, "DPdy", 4, [.id, .resultId, .id]⟩
  | opFwidth => ⟨209, "Fwidth", 4, [.id, .resultId, .id]⟩
  | opDPdxFine => ⟨210, "DPdxFine", 4, [.id, .resultId, .id]⟩
  | opDPdyFine => ⟨211, "DPdyFine", 4, [.id, .resultId, .id]⟩
  | opFwidthFine => ⟨212, "FwidthFine", 4, [.id, .resultId, .id]⟩
  | opDPdxCoarse => ⟨213, "DPdxCoarse", 4, [.id, .resultId, .id]⟩
  | opDPdyCoarse => ⟨214, "DPdyCoarse", 4, [.id, .resultId, .id]⟩
  | opFwidthCoarse => ⟨215, "FwidthCoarse", 4, [.id, .resultId, .id]⟩
  -- Primitives
  | opEmitVertex => ⟨218, "EmitVertex", 1, []⟩
  | opEndPrimitive => ⟨219, "EndPrimitive", 1, []⟩
  | opEmitStreamVertex => ⟨220, "EmitStreamVertex", 2, [.id]⟩
  | opEndStreamPrimitive => ⟨221, "EndStreamPrimitive", 2, [.id]⟩
  -- Barriers and atomics
  | opControlBarrier => ⟨224, "ControlBarrier", 4,
      [.executionScope, .executionScope, .memorySemantics]⟩
  | opMemoryBarrier => ⟨225, "MemoryBarrier", 3, [.executionScope, .memorySemantics]⟩
  | opAtomicLoad => ⟨227, "AtomicLoad", 6, [.id, .resultId, .id, .executionScope, .memorySemantics]⟩
  | opAtomicStore => ⟨228, "AtomicStore", 5, [.id, .executionScope, .memorySemantics, .id]⟩
  | opAtomicExchange => ⟨229, "AtomicExchange", 7,
      [.id, .resultId, .id, .executionScope, .memorySemantics, .id]⟩
  | opAtomicCompareExchange => ⟨230, "AtomicCompareExchange", 9,
      [.id, .resultId, .id, .executionScope, .memorySemantics, .memorySemantics, .id, .id]⟩
  | opAtomicCompareExchangeWeak => ⟨231, "AtomicCompareExchangeWeak", 9,
      [.id, .resultId, .id, .executionScope, .memorySemantics, .memorySemantics, .id, .id]⟩
  | opAtomicIIncrement => ⟨232, "AtomicIIncrement", 6,
      [.id, .resultId, .id, .executionScope, .memorySemantics]⟩
  | opAtomicIDecrement => ⟨233, "AtomicIDecrement", 6,
      [.id, .resultId, .id, .executionScope, .memorySemantics]⟩
  | opAtomicIAdd => ⟨234, "AtomicIAdd", 7,
      [.id, .resultId, .id, .executionScope, .memorySemantics, .id]⟩
  | opAtomicISub => ⟨235, "AtomicISub", 7,
      [.id, .resultId, .id, .executionScope, .memorySemantics, .id]⟩
  | opAtomicSMin => ⟨236, "AtomicSMin", 7,
      [.id, .resultId, .id, .executionScope, .memorySemantics, .id]⟩
  | opAtomicUMin => ⟨237, "AtomicUMin", 7,
      [.id, .resultId, .id, .executionScope, .memorySemantics, .id]⟩
  | opAtomicSMax => ⟨238, "AtomicSMax", 7,
      [.id, .resultId, .id, .executionScope, .memorySemantics, .id]⟩
  | opAtomicUMax => ⟨239, "AtomicUMax", 7,
      [.id, .resultId, .id, .executionScope, .memorySemantics, .id]⟩
  | opAtomicAnd => ⟨240, "AtomicAnd", 7,
      [.id, .resultId, .id, .executionScope, .memorySemantics, .id]⟩
  | opAtomicOr => ⟨241, "AtomicOr", 7,
      [.id, .resultId, .id, .executionScope, .memorySemantics, .id]⟩
  | opAtomicXor => ⟨242, "AtomicXor", 7,
      [.id, .resultId, .id, .executionScope, .memorySemantics, .id]⟩
  -- Control flow
  | opPhi => ⟨245, "Phi", 3, [.id, .resultId, .id]⟩
  | opLoopMerge => ⟨246, "LoopMerge", 4, [.id, .id, .loopControl]⟩
  | opSelectionMerge => ⟨247, "SelectionMerge", 3, [.id, .selectionControl]⟩
  | opLabel => ⟨248, "Label", 2, [.resultId]⟩
  | opBranch => ⟨249, "Branch", 2, [.id]⟩
  | opBranchConditional => ⟨250, "BranchConditional", 4, [.id, .id, .id, .literal]⟩
  | opSwitch => ⟨251, "Switch", 3, [.id, .id, .literal, .id]⟩
  | opKill => ⟨252, "Kill", 1, []⟩
  | opReturn => ⟨253, "Return", 1, []⟩
  | opReturnValue => ⟨254, "ReturnValue", 2, [.id]⟩
  | opUnreachable => ⟨255, "Unreachable", 1, []⟩
  | opLifetimeStart => ⟨256, "LifetimeStart", 3, [.id, .literal]⟩
  | opLifetimeStop => ⟨257, "LifetimeStop", 3, [.id, .literal]⟩
  -- Groups
  | opGroupAsyncCopy => ⟨259, "GroupAsyncCopy", 9,
      [.id, .resultId, .executionScope, .id, .id, .id, .id, .id]⟩
  | opGroupWaitEvents => ⟨260, "GroupWaitEvents", 4, [.executionScope, .id, .id]⟩
  | opGroupAll => ⟨261, "GroupAll", 5, [.id, .resultId, .executionScope, .id]⟩
  | opGroupAny => ⟨262, "GroupAny", 5, [.id, .resultId, .executionScope, .id]⟩
  | opGroupBroadcast => ⟨263, "GroupBroadcast", 6, [.id, .resultId, .executionScope, .id, .id]⟩
  | opGroupIAdd => ⟨264, "GroupIAdd", 6, [.id, .resultId, .executionScope, .groupOperation, .id]⟩
  | opGroupFAdd => ⟨265, "GroupFAdd", 6, [.id, .resultId, .executionScope, .groupOperation, .id]⟩
  | opGroupFMin => ⟨266, "GroupFMin", 6, [.id, .resultId, .executionScope, .groupOperation, .id]⟩
  | opGroupUMin => ⟨267, "GroupUMin", 6, [.id, .resultId, .executionScope, .groupOperation, .id]⟩
  | opGroupSMin => ⟨268, "GroupSMin", 6, [.id, .resultId, .executionScope, .groupOperation, .id]⟩
  | opGroupFMax => ⟨269, "GroupFMax", 6, [.id, .resultId, .executionScope, .groupOperation, .id]⟩
  | opGroupUMax => ⟨270, "GroupUMax", 6, [.id, .resultId, .executionScope, .groupOperation, .id]⟩
  | opGroupSMax => ⟨271, "GroupSMax", 6, [.id, .resultId, .executionScope, .groupOperation, .id]⟩
  -- Pipes
  | opReadPipe => ⟨274, "ReadPipe", 7, [.id, .resultId, .id, .id, .id, .id]⟩
  | opWritePipe => ⟨275, "WritePipe", 7, [.id, .resultId, .id, .id, .id, .id]⟩
  | opReservedReadPipe => ⟨276, "ReservedReadPipe", 9,
      [.id, .resultId, .id, .id, .id, .id, .id, .id]⟩
  | opReservedWritePipe => ⟨277, "ReservedWritePipe", 9,
      [.id, .resultId, .id, .id, .id, .id, .id, .id]⟩
  | opReserveReadPipePackets => ⟨278, "ReserveReadPipePackets", 7,
      [.id, .resultId, .id, .id, .id, .id]⟩
  | opReserveWritePipePackets => ⟨279, "ReserveWritePipePackets", 7,
      [.id, .resultId, .id, .id, .id, .id]⟩
  | opCommitReadPipe => ⟨280, "CommitReadPipe", 5, [.id, .id, .id, .id]⟩
  | opCommitWritePipe => ⟨281, "CommitWritePipe", 5, [.id, .id, .id, .id]⟩
  | opIsValidReserveId => ⟨282, "IsValidReserveId", 4, [.id, .resultId, .id]⟩
  | opGetNumPipePackets => ⟨283, "GetNumPipePackets", 6, [.id, .resultId, .id, .id, .id]⟩
  | opGetMaxPipePackets => ⟨284, "GetMaxPipePackets", 6, [.id, .resultId, .id, .id, .id]⟩
  | opGroupReserveReadPipePackets => ⟨285, "GroupReserveReadPipePackets", 8,
      [.id, .resultId, .executionScope, .id, .id, .id, .id]⟩
  | opGroupReserveWritePipePackets => ⟨286, "GroupReserveWritePipePackets", 8,
      [.id, .resultId, .executionScope, .id, .id, .id, .id]⟩
  | opGroupCommitReadPipe => ⟨287, "GroupCommitReadPipe", 6, [.executionScope, .id, .id, .id, .id]⟩
  | opGroupCommitWritePipe => ⟨288, "GroupCommitWritePipe", 6,
      [.executionScope, .id, .id, .id, .id]⟩
  -- Device side enqueue
  | opEnqueueMarker => ⟨291, "EnqueueMarker", 7, [.id, .resultId, .id, .id, .id, .id]⟩
  | opEnqueueKernel => ⟨292, "EnqueueKernel", 13,
      [.id, .resultId, .id, .kernelEnqueueFlags, .id, .id, .id, .id, .id, .id, .id, .id, .id]⟩
  | opGetKernelNDrangeSubGroupCount => ⟨293, "GetKernelNDrangeSubGroupCount", 8,
      [.id, .resultId, .id, .id, .id, .id, .id]⟩
  | opGetKernelNDrangeMaxSubGroupSize => ⟨294, "GetKernelNDrangeMaxSubGroupSize", 8,
      [.id, .resultId, .id, .id, .id, .id, .id]⟩
  | opGetKernelWorkGroupSize => ⟨295, "GetKernelWorkGroupSize", 7,
      [.id, .resultId, .id, .id, .id, .id]⟩
  | opGetKernelPreferredWorkGroupSizeMultiple => ⟨296, "GetKernelPreferredWorkGroupSizeMultiple", 7,
      [.id, .resultId, .id, .id, .id, .id]⟩
  | opRetainEvent => ⟨297, "RetainEvent", 2, [.id]⟩
  | opReleaseEvent => ⟨298, "ReleaseEvent", 2, [.id]⟩
  | opCreateUserEvent => ⟨299, "CreateUserEvent", 3, [.id, .resultId]⟩
  | opIsValidEvent => ⟨300, "IsValidEvent", 4, [.id, .resultId, .id]⟩
  | opSetUserEventStatus => ⟨301, "SetUserEventStatus", 3, [.id, .id]⟩
  | opCaptureEventProfilingInfo => ⟨302, "CaptureEventProfilingInfo", 4,
      [.id, .kernelProfilingInfo, .id]⟩
  | opGetDefaultQueue => ⟨303, "GetDefaultQueue", 3, [.id, .resultId]⟩
  | opBuildNDRange => ⟨304, "BuildNDRange", 6, [.id, .resultId, .id, .id, .id]⟩
  -- Sparse images
  | opImageSparseSampleImplicitLod => ⟨305, "ImageSparseSampleImplicitLod", 5,
      [.id, .resultId, .id, .id, .imageOperands]⟩
  | opImageSparseSampleExplicitLod => ⟨306, "ImageSparseSampleExplicitLod", 7,
      [.id, .resultId, .id, .id, .imageOperands]⟩
  | opImageSparseSampleDrefImplicitLod => ⟨307, "ImageSparseSampleDrefImplicitLod", 6,
      [.id, .resultId, .id, .id, .id, .imageOperands]⟩
  | opImageSparseSampleDrefExplicitLod => ⟨308, "ImageSparseSampleDrefExplicitLod", 8,
      [.id, .resultId, .id, .id, .id, .imageOperands]⟩
  | opImageSparseSampleProjImplicitLod => ⟨309, "ImageSparseSampleProjImplicitLod", 5,
      [.id, .resultId, .id, .id, .imageOperands]⟩
  | opImageSparseSampleProjExplicitLod => ⟨310, "ImageSparseSampleProjExplicitLod", 7,
      [.id, .resultId, .id, .id, .imageOperands]⟩
  | opImageSparseSampleProjDrefImplicitLod => ⟨311, "ImageSparseSampleProjDrefImplicitLod", 6,
      [.id, .resultId, .id, .id, .id, .imageOperands]⟩
  | opImageSparseSampleProjDrefExplicitLod => ⟨312, "ImageSparseSampleProjDrefExplicitLod", 8,
      [.id, .resultId, .id, .id, .id, .imageOperands]⟩
  | opImageSparseFetch => ⟨313, "ImageSparseFetch", 5, [.id, .resultId, .id, .id, .imageOperands]⟩
  | opImageSparseGather => ⟨314, "ImageSparseGather", 6,
      [.id, .resultId, .id, .id, .id, .imageOperands]⟩
  | opImageSparseDrefGather => ⟨315, "ImageSparseDrefGather", 6,
      [.id, .resultId, .id, .id, .id, .imageOperands]⟩
  | opImageSparseTexelsResident => ⟨316, "ImageSparseTexelsResident", 4, [.id, .resultId, .id]⟩
  | opNoLine => ⟨317, "NoLine", 1, []⟩
  | opAtomicFlagTestAndSet => ⟨318, "AtomicFlagTestAndSet", 6,
      [.id, .resultId, .id, .executionScope, .memorySemantics]⟩
  | opAtomicFlagClear => ⟨319, "AtomicFlagClear", 4, [.id, .executionScope, .memorySemantics]⟩
  | opImageSparseRead => ⟨320, "ImageSparseRead", 5, [.id, .resultId, .id, .id, .imageOperands]⟩

/-- Every opcode, by ascending number. -/
def all : List Opcode := [
  .opNop, .opUndef, .opSourceContinued, .opSource, .opSourceExtension, .opName, .opMemberName,
  .opString, .opLine, .opExtension, .opExtInstImport, .opExtInst, .opMemoryModel, .opEntryPoint,
  .opExecutionMode, .opCapability, .opTypeVoid, .opTypeBool, .opTypeInt, .opTypeFloat,
  .opTypeVector, .opTypeMatrix, .opTypeImage, .opTypeSampler, .opTypeSampledImage, .opTypeArray,
  .opTypeRuntimeArray, .opTypeStruct, .opTypeOpaque, .opTypePointer, .opTypeFunction,
  .opTypeEvent, .opTypeDeviceEvent, .opTypeReserveId, .opTypeQueue, .opTypePipe,
  .opTypeForwardPointer, .opConstantTrue, .opConstantFalse, .opConstant, .opConstantComposite,
  .opConstantSampler, .opConstantNull, .opSpecConstantTrue, .opSpecConstantFalse,
  .opSpecConstant, .opSpecConstantComposite, .opSpecConstantOp, .opFunction,
  .opFunctionParameter, .opFunctionEnd, .opFunctionCall, .opVariable, .opImageTexelPointer,
  .opLoad, .opStore, .opCopyMemory, .opCopyMemorySized, .opAccessChain, .opInBoundsAccessChain,
  .opPtrAccessChain, .opArrayLength, .opGenericPtrMemSemantics, .opInBoundsPtrAccessChain,
  .opDecorate, .opMemberDecorate, .opDecorationGroup, .opGroupDecorate, .opGroupMemberDecorate,
  .opVectorExtractDynamic, .opVectorInsertDynamic, .opVectorShuffle, .opCompositeConstruct,
  .opCompositeExtract, .opCompositeInsert, .opCopyObject, .opTranspose, .opSampledImage,
  .opImageSampleImplicitLod, .opImageSampleExplicitLod, .opImageSampleDrefImplicitLod,
  .opImageSampleDrefExplicitLod, .opImageSampleProjImplicitLod, .opImageSampleProjExplicitLod,
  .opImageSampleProjDrefImplicitLod, .opImageSampleProjDrefExplicitLod, .opImageFetch,
  .opImageGather, .opImageDrefGather, .opImageRead, .opImageWrite, .opImage, .opImageQueryFormat,
  .opImageQueryOrder, .opImageQuerySizeLod, .opImageQuerySize, .opImageQueryLod,
  .opImageQueryLevels, .opImageQuerySamples, .opConvertFToU, .opConvertFToS, .opConvertSToF,
  .opConvertUToF, .opUConvert, .opSConvert, .opFConvert, .opQuantizeToF16, .opConvertPtrToU,
  .opSatConvertSToU, .opSatConvertUToS, .opConvertUToPtr, .opPtrCastToGeneric,
  .opGenericCastToPtr, .opGenericCastToPtrExplicit, .opBitcast, .opSNegate, .opFNegate, .opIAdd,
  .opFAdd, .opISub, .opFSub, .opIMul, .opFMul, .opUDiv, .opSDiv, .opFDiv, .opUMod, .opSRem,
  .opSMod, .opFRem, .opFMod, .opVectorTimesScalar, .opMatrixTimesScalar, .opVectorTimesMatrix,
  .opMatrixTimesVector, .opMatrixTimesMatrix, .opOuterProduct, .opDot, .opIAddCarry,
  .opISubBorrow, .opUMulExtended, .opSMulExtended, .opAny, .opAll, .opIsNan, .opIsInf,
  .opIsFinite, .opIsNormal, .opSignBitSet, .opLessOrGreater, .opOrdered, .opUnordered,
  .opLogicalEqual, .opLogicalNotEqual, .opLogicalOr, .opLogicalAnd, .opLogicalNot, .opSelect,
  .opIEqual, .opINotEqual, .opUGreaterThan, .opSGreaterThan, .opUGreaterThanEqual,
  .opSGreaterThanEqual, .opULessThan, .opSLessThan, .opULessThanEqual, .opSLessThanEqual,
  .opFOrdEqual, .opFUnordEqual, .opFOrdNotEqual, .opFUnordNotEqual, .opFOrdLessThan,
  .opFUnordLessThan, .opFOrdGreaterThan, .opFUnordGreaterThan, .opFOrdLessThanEqual,
  .opFUnordLessThanEqual, .opFOrdGreaterThanEqual, .opFUnordGreaterThanEqual,
  .opShiftRightLogical, .opShiftRightArithmetic, .opShiftLeftLogical, .opBitwiseOr,
  .opBitwiseXor, .opBitwiseAnd, .opNot, .opBitFieldInsert, .opBitFieldSExtract,
  .opBitFieldUExtract, .opBitReverse, .opBitCount, .opDPdx, .opDPdy, .opFwidth, .opDPdxFine,
  .opDPdyFine, .opFwidthFine, .opDPdxCoarse, .opDPdyCoarse, .opFwidthCoarse, .opEmitVertex,
  .opEndPrimitive, .opEmitStreamVertex, .opEndStreamPrimitive, .opControlBarrier,
  .opMemoryBarrier, .opAtomicLoad, .opAtomicStore, .opAtomicExchange, .opAtomicCompareExchange,
  .opAtomicCompareExchangeWeak, .opAtomicIIncrement, .opAtomicIDecrement, .opAtomicIAdd,
  .opAtomicISub, .opAtomicSMin, .opAtomicUMin, .opAtomicSMax, .opAtomicUMax, .opAtomicAnd,
  .opAtomicOr, .opAtomicXor, .opPhi, .opLoopMerge, .opSelectionMerge, .opLabel, .opBranch,
  .opBranchConditional, .opSwitch, .opKill, .opReturn, .opReturnValue, .opUnreachable,
  .opLifetimeStart, .opLifetimeStop, .opGroupAsyncCopy, .opGroupWaitEvents, .opGroupAll,
  .opGroupAny, .opGroupBroadcast, .opGroupIAdd, .opGroupFAdd, .opGroupFMin, .opGroupUMin,
  .opGroupSMin, .opGroupFMax, .opGroupUMax, .opGroupSMax, .opReadPipe, .opWritePipe,
  .opReservedReadPipe, .opReservedWritePipe, .opReserveReadPipePackets,
  .opReserveWritePipePackets, .opCommitReadPipe, .opCommitWritePipe, .opIsValidReserveId,
  .opGetNumPipePackets, .opGetMaxPipePackets, .opGroupReserveReadPipePackets,
  .opGroupReserveWritePipePackets, .opGroupCommitReadPipe, .opGroupCommitWritePipe,
  .opEnqueueMarker, .opEnqueueKernel, .opGetKernelNDrangeSubGroupCount,
  .opGetKernelNDrangeMaxSubGroupSize, .opGetKernelWorkGroupSize,
  .opGetKernelPreferredWorkGroupSizeMultiple, .opRetainEvent, .opReleaseEvent,
  .opCreateUserEvent, .opIsValidEvent, .opSetUserEventStatus, .opCaptureEventProfilingInfo,
  .opGetDefaultQueue, .opBuildNDRange, .opImageSparseSampleImplicitLod,
  .opImageSparseSampleExplicitLod, .opImageSparseSampleDrefImplicitLod,
  .opImageSparseSampleDrefExplicitLod, .opImageSparseSampleProjImplicitLod,
  .opImageSparseSampleProjExplicitLod, .opImageSparseSampleProjDrefImplicitLod,
  .opImageSparseSampleProjDrefExplicitLod, .opImageSparseFetch, .opImageSparseGather,
  .opImageSparseDrefGather, .opImageSparseTexelsResident, .opNoLine, .opAtomicFlagTestAndSet,
  .opAtomicFlagClear, .opImageSparseRead]

/-- The number of an opcode. -/
def code (o : Opcode) : UInt16 := o.spec.code

/-- The name of an opcode, without `Op`. -/
def name (o : Opcode) : String := o.spec.name

/-- The textual form of an opcode, `Op` followed by its name. -/
def mnemonic (o : Opcode) : String := "Op" ++ o.name

/-- The opcode with the given number. -/
def ofCode? (code : UInt16) : Option Opcode := all.find? (·.code == code)

/-- The opcode with the given name, which is written without `Op`. -/
def ofName? (name : String) : Option Opcode := all.find? (·.name == name)

/-- Opcodes whose operands past the fixed ones come in pairs: `(literal, label)` for `OpSwitch`
and `(target, member)` for `OpGroupMemberDecorate`. -/
def readsPairs (o : Opcode) : Bool := o == .opSwitch || o == .opGroupMemberDecorate

end Opcode

end Spirv

import Spirv.OperandKind
import Spirv.Word

/-!
# Enumerants

The values of the enumerated operand kinds of the SPIR-V 1.0 core grammar.

* `Enumerant`: a value, its name and the kinds of the operands that it brings with it.
* `OperandKind.enumerants`: the enumerants of each kind.
-/

namespace Spirv

/-- One value of an enumerated operand kind. -/
structure Enumerant where
  value : Word
  name : String
  /-- The kinds of the operands that follow the fixed ones when this value is present, such as the
  alignment after `Aligned`. -/
  parameters : List OperandKind := []
deriving DecidableEq

namespace Enumerant

/-- The values of the kind "source language". -/
def sourceLanguageValues : List Enumerant := [
  ⟨0, "Unknown", []⟩, ⟨1, "ESSL", []⟩, ⟨2, "GLSL", []⟩, ⟨3, "OpenCL_C", []⟩,
  ⟨4, "OpenCL_CPP", []⟩]

/-- The values of the kind "execution model". -/
def executionModelValues : List Enumerant := [
  ⟨0, "Vertex", []⟩, ⟨1, "TessellationControl", []⟩, ⟨2, "TessellationEvaluation", []⟩,
  ⟨3, "Geometry", []⟩, ⟨4, "Fragment", []⟩, ⟨5, "GLCompute", []⟩, ⟨6, "Kernel", []⟩]

/-- The values of the kind "addressing model". -/
def addressingModelValues : List Enumerant := [
  ⟨0, "Logical", []⟩, ⟨1, "Physical32", []⟩, ⟨2, "Physical64", []⟩]

/-- The values of the kind "memory model". -/
def memoryModelValues : List Enumerant := [
  ⟨0, "Simple", []⟩, ⟨1, "GLSL450", []⟩, ⟨2, "OpenCL", []⟩]

/-- The values of the kind "execution mode". -/
def executionModeValues : List Enumerant := [
  ⟨0, "Invocations", [.literal]⟩, ⟨1, "SpacingEqual", []⟩, ⟨2, "SpacingFractionalEven", []⟩,
  ⟨3, "SpacingFractionalOdd", []⟩, ⟨4, "VertexOrderCw", []⟩, ⟨5, "VertexOrderCcw", []⟩,
  ⟨6, "PixelCenterInteger", []⟩, ⟨7, "OriginUpperLeft", []⟩, ⟨8, "OriginLowerLeft", []⟩,
  ⟨9, "EarlyFragmentTests", []⟩, ⟨10, "PointMode", []⟩, ⟨11, "Xfb", []⟩,
  ⟨12, "DepthReplacing", []⟩, ⟨14, "DepthGreater", []⟩, ⟨15, "DepthLess", []⟩,
  ⟨16, "DepthUnchanged", []⟩, ⟨17, "LocalSize", [.literal, .literal, .literal]⟩,
  ⟨18, "LocalSizeHint", [.literal, .literal, .literal]⟩, ⟨19, "InputPoints", []⟩,
  ⟨20, "InputLines", []⟩, ⟨21, "InputLinesAdjacency", []⟩, ⟨22, "Triangles", []⟩,
  ⟨23, "InputTrianglesAdjacency", []⟩, ⟨24, "Quads", []⟩, ⟨25, "Isolines", []⟩,
  ⟨26, "OutputVertices", [.literal]⟩, ⟨27, "OutputPoints", []⟩, ⟨28, "OutputLineStrip", []⟩,
  ⟨29, "OutputTriangleStrip", []⟩, ⟨30, "VecTypeHint", [.literal]⟩, ⟨31, "ContractionOff", []⟩]

/-- The values of the kind "storage class". -/
def storageClassValues : List Enumerant := [
  ⟨0, "UniformConstant", []⟩, ⟨1, "Input", []⟩, ⟨2, "Uniform", []⟩, ⟨3, "Output", []⟩,
  ⟨4, "Workgroup", []⟩, ⟨5, "CrossWorkgroup", []⟩, ⟨6, "Private", []⟩, ⟨7, "Function", []⟩,
  ⟨8, "Generic", []⟩, ⟨9, "PushConstant", []⟩, ⟨10, "AtomicCounter", []⟩, ⟨11, "Image", []⟩]

/-- The values of the kind "dimensionality". -/
def dimensionalityValues : List Enumerant := [
  ⟨0, "1D", []⟩, ⟨1, "2D", []⟩, ⟨2, "3D", []⟩, ⟨3, "Cube", []⟩, ⟨4, "Rect", []⟩,
  ⟨5, "Buffer", []⟩, ⟨6, "SubpassData", []⟩]

/-- The values of the kind "sampler addressing mode". -/
def samplerAddressingModeValues : List Enumerant := [
  ⟨0, "None", []⟩, ⟨1, "ClampToEdge", []⟩, ⟨2, "Clamp", []⟩, ⟨3, "Repeat", []⟩,
  ⟨4, "RepeatMirrored", []⟩]

/-- The values of the kind "sampler filter mode". -/
def samplerFilterModeValues : List Enumerant := [
  ⟨0, "Nearest", []⟩, ⟨1, "Linear", []⟩]

/-- The values of the kind "image format". -/
def imageFormatValues : List Enumerant := [
  ⟨0, "Unknown", []⟩, ⟨1, "Rgba32f", []⟩, ⟨2, "Rgba16f", []⟩, ⟨3, "R32f", []⟩, ⟨4, "Rgba8", []⟩,
  ⟨5, "Rgba8Snorm", []⟩, ⟨6, "Rg32f", []⟩, ⟨7, "Rg16f", []⟩, ⟨8, "R11fG11fB10f", []⟩,
  ⟨9, "R16f", []⟩, ⟨10, "Rgba16", []⟩, ⟨11, "Rgb10A2", []⟩, ⟨12, "Rg16", []⟩, ⟨13, "Rg8", []⟩,
  ⟨14, "R16", []⟩, ⟨15, "R8", []⟩, ⟨16, "Rgba16Snorm", []⟩, ⟨17, "Rg16Snorm", []⟩,
  ⟨18, "Rg8Snorm", []⟩, ⟨19, "R16Snorm", []⟩, ⟨20, "R8Snorm", []⟩, ⟨21, "Rgba32i", []⟩,
  ⟨22, "Rgba16i", []⟩, ⟨23, "Rgba8i", []⟩, ⟨24, "R32i", []⟩, ⟨25, "Rg32i", []⟩,
  ⟨26, "Rg16i", []⟩, ⟨27, "Rg8i", []⟩, ⟨28, "R16i", []⟩, ⟨29, "R8i", []⟩, ⟨30, "Rgba32ui", []⟩,
  ⟨31, "Rgba16ui", []⟩, ⟨32, "Rgba8ui", []⟩, ⟨33, "R32ui", []⟩, ⟨34, "Rgb10a2ui", []⟩,
  ⟨35, "Rg32ui", []⟩, ⟨36, "Rg16ui", []⟩, ⟨37, "Rg8ui", []⟩, ⟨38, "R16ui", []⟩, ⟨39, "R8ui", []⟩]

/-- The values of the kind "image operands". -/
def imageOperandsValues : List Enumerant := [
  ⟨0x00, "None", []⟩, ⟨0x01, "Bias", [.id]⟩, ⟨0x02, "Lod", [.id]⟩, ⟨0x04, "Grad", [.id, .id]⟩,
  ⟨0x08, "ConstOffset", [.id]⟩, ⟨0x10, "Offset", [.id]⟩, ⟨0x20, "ConstOffsets", [.id]⟩,
  ⟨0x40, "Sample", [.id]⟩, ⟨0x80, "MinLod", [.id]⟩]

/-- The values of the kind "floating-point fast math mode". -/
def fpFastMathModeValues : List Enumerant := [
  ⟨0x00, "None", []⟩, ⟨0x01, "NotNaN", []⟩, ⟨0x02, "NotInf", []⟩, ⟨0x04, "NSZ", []⟩,
  ⟨0x08, "AllowRecip", []⟩, ⟨0x10, "Fast", []⟩]

/-- The values of the kind "floating-point rounding mode". -/
def fpRoundingModeValues : List Enumerant := [
  ⟨0, "RTE", []⟩, ⟨1, "RTZ", []⟩, ⟨2, "RTP", []⟩, ⟨3, "RTN", []⟩]

/-- The values of the kind "linkage type". -/
def linkageTypeValues : List Enumerant := [
  ⟨0, "Export", []⟩, ⟨1, "Import", []⟩]

/-- The values of the kind "access qualifier". -/
def accessQualifierValues : List Enumerant := [
  ⟨0, "ReadOnly", []⟩, ⟨1, "WriteOnly", []⟩, ⟨2, "ReadWrite", []⟩]

/-- The values of the kind "function parameter attribute". -/
def functionParameterAttributeValues : List Enumerant := [
  ⟨0, "Zext", []⟩, ⟨1, "Sext", []⟩, ⟨2, "ByVal", []⟩, ⟨3, "Sret", []⟩, ⟨4, "NoAlias", []⟩,
  ⟨5, "NoCapture", []⟩, ⟨6, "NoWrite", []⟩, ⟨7, "NoReadWrite", []⟩]

/-- The values of the kind "decoration". -/
def decorationValues : List Enumerant := [
  ⟨0, "RelaxedPrecision", []⟩, ⟨1, "SpecId", [.literal]⟩, ⟨2, "Block", []⟩,
  ⟨3, "BufferBlock", []⟩, ⟨4, "RowMajor", []⟩, ⟨5, "ColMajor", []⟩,
  ⟨6, "ArrayStride", [.literal]⟩, ⟨7, "MatrixStride", [.literal]⟩, ⟨8, "GLSLShared", []⟩,
  ⟨9, "GLSLPacked", []⟩, ⟨10, "CPacked", []⟩, ⟨11, "BuiltIn", [.builtIn]⟩,
  ⟨13, "NoPerspective", []⟩, ⟨14, "Flat", []⟩, ⟨15, "Patch", []⟩, ⟨16, "Centroid", []⟩,
  ⟨17, "Sample", []⟩, ⟨18, "Invariant", []⟩, ⟨19, "Restrict", []⟩, ⟨20, "Aliased", []⟩,
  ⟨21, "Volatile", []⟩, ⟨22, "Constant", []⟩, ⟨23, "Coherent", []⟩, ⟨24, "NonWritable", []⟩,
  ⟨25, "NonReadable", []⟩, ⟨26, "Uniform", []⟩, ⟨28, "SaturatedConversion", []⟩,
  ⟨29, "Stream", [.literal]⟩, ⟨30, "Location", [.literal]⟩, ⟨31, "Component", [.literal]⟩,
  ⟨32, "Index", [.literal]⟩, ⟨33, "Binding", [.literal]⟩, ⟨34, "DescriptorSet", [.literal]⟩,
  ⟨35, "Offset", [.literal]⟩, ⟨36, "XfbBuffer", [.literal]⟩, ⟨37, "XfbStride", [.literal]⟩,
  ⟨38, "FuncParamAttr", [.functionParameterAttribute]⟩,
  ⟨39, "FPRoundingMode", [.fpRoundingMode]⟩, ⟨40, "FPFastMathMode", [.fpFastMathMode]⟩,
  ⟨41, "LinkageAttributes", [.literalString, .linkageType]⟩, ⟨42, "NoContraction", []⟩,
  ⟨43, "InputAttachmentIndex", [.literal]⟩, ⟨44, "Alignment", [.literal]⟩]

/-- The values of the kind "built-in". -/
def builtInValues : List Enumerant := [
  ⟨0, "Position", []⟩, ⟨1, "PointSize", []⟩, ⟨3, "ClipDistance", []⟩, ⟨4, "CullDistance", []⟩,
  ⟨5, "VertexId", []⟩, ⟨6, "InstanceId", []⟩, ⟨7, "PrimitiveId", []⟩, ⟨8, "InvocationId", []⟩,
  ⟨9, "Layer", []⟩, ⟨10, "ViewportIndex", []⟩, ⟨11, "TessLevelOuter", []⟩,
  ⟨12, "TessLevelInner", []⟩, ⟨13, "TessCoord", []⟩, ⟨14, "PatchVertices", []⟩,
  ⟨15, "FragCoord", []⟩, ⟨16, "PointCoord", []⟩, ⟨17, "FrontFacing", []⟩, ⟨18, "SampleId", []⟩,
  ⟨19, "SamplePosition", []⟩, ⟨20, "SampleMask", []⟩, ⟨22, "FragDepth", []⟩,
  ⟨23, "HelperInvocation", []⟩, ⟨24, "NumWorkgroups", []⟩, ⟨25, "WorkgroupSize", []⟩,
  ⟨26, "WorkgroupId", []⟩, ⟨27, "LocalInvocationId", []⟩, ⟨28, "GlobalInvocationId", []⟩,
  ⟨29, "LocalInvocationIndex", []⟩, ⟨30, "WorkDim", []⟩, ⟨31, "GlobalSize", []⟩,
  ⟨32, "EnqueuedWorkgroupSize", []⟩, ⟨33, "GlobalOffset", []⟩, ⟨34, "GlobalLinearId", []⟩,
  ⟨36, "SubgroupSize", []⟩, ⟨37, "SubgroupMaxSize", []⟩, ⟨38, "NumSubgroups", []⟩,
  ⟨39, "NumEnqueuedSubgroups", []⟩, ⟨40, "SubgroupId", []⟩,
  ⟨41, "SubgroupLocalInvocationId", []⟩, ⟨42, "VertexIndex", []⟩, ⟨43, "InstanceIndex", []⟩]

/-- The values of the kind "selection control". -/
def selectionControlValues : List Enumerant := [
  ⟨0x0, "None", []⟩, ⟨0x1, "Flatten", []⟩, ⟨0x2, "DontFlatten", []⟩]

/-- The values of the kind "loop control". -/
def loopControlValues : List Enumerant := [
  ⟨0x0, "None", []⟩, ⟨0x1, "Unroll", []⟩, ⟨0x2, "DontUnroll", []⟩]

/-- The values of the kind "function control". -/
def functionControlValues : List Enumerant := [
  ⟨0x0, "None", []⟩, ⟨0x1, "Inline", []⟩, ⟨0x2, "DontInline", []⟩, ⟨0x4, "Pure", []⟩,
  ⟨0x8, "Const", []⟩]

/-- The values of the kind "memory semantics". -/
def memorySemanticsValues : List Enumerant := [
  ⟨0x000, "None", []⟩, ⟨0x002, "Acquire", []⟩, ⟨0x004, "Release", []⟩,
  ⟨0x008, "AcquireRelease", []⟩, ⟨0x010, "SequentiallyConsistent", []⟩,
  ⟨0x040, "UniformMemory", []⟩, ⟨0x080, "SubgroupMemory", []⟩, ⟨0x100, "WorkgroupMemory", []⟩,
  ⟨0x200, "CrossWorkgroupMemory", []⟩, ⟨0x400, "AtomicCounterMemory", []⟩,
  ⟨0x800, "ImageMemory", []⟩]

/-- The values of the kind "memory access". -/
def memoryAccessValues : List Enumerant := [
  ⟨0x0, "None", []⟩, ⟨0x1, "Volatile", []⟩, ⟨0x2, "Aligned", [.literal]⟩,
  ⟨0x4, "Nontemporal", []⟩]

/-- The values of the kind "execution scope". -/
def executionScopeValues : List Enumerant := [
  ⟨0, "CrossDevice", []⟩, ⟨1, "Device", []⟩, ⟨2, "Workgroup", []⟩, ⟨3, "Subgroup", []⟩,
  ⟨4, "Invocation", []⟩]

/-- The values of the kind "group operation". -/
def groupOperationValues : List Enumerant := [
  ⟨0, "Reduce", []⟩, ⟨1, "InclusiveScan", []⟩, ⟨2, "ExclusiveScan", []⟩]

/-- The values of the kind "kernel enqueue flags". -/
def kernelEnqueueFlagsValues : List Enumerant := [
  ⟨0, "NoWait", []⟩, ⟨1, "WaitKernel", []⟩, ⟨2, "WaitWorkGroup", []⟩]

/-- The values of the kind "kernel profiling info". -/
def kernelProfilingInfoValues : List Enumerant := [
  ⟨0x0, "None", []⟩, ⟨0x1, "CmdExecTime", []⟩]

/-- The values of the kind "capability". -/
def capabilityValues : List Enumerant := [
  ⟨0, "Matrix", []⟩, ⟨1, "Shader", []⟩, ⟨2, "Geometry", []⟩, ⟨3, "Tessellation", []⟩,
  ⟨4, "Addresses", []⟩, ⟨5, "Linkage", []⟩, ⟨6, "Kernel", []⟩, ⟨7, "Vector16", []⟩,
  ⟨8, "Float16Buffer", []⟩, ⟨9, "Float16", []⟩, ⟨10, "Float64", []⟩, ⟨11, "Int64", []⟩,
  ⟨12, "Int64Atomics", []⟩, ⟨13, "ImageBasic", []⟩, ⟨14, "ImageReadWrite", []⟩,
  ⟨15, "ImageMipmap", []⟩, ⟨17, "Pipes", []⟩, ⟨18, "Groups", []⟩, ⟨19, "DeviceEnqueue", []⟩,
  ⟨20, "LiteralSampler", []⟩, ⟨21, "AtomicStorage", []⟩, ⟨22, "Int16", []⟩,
  ⟨23, "TessellationPointSize", []⟩, ⟨24, "GeometryPointSize", []⟩,
  ⟨25, "ImageGatherExtended", []⟩, ⟨27, "StorageImageMultisample", []⟩,
  ⟨28, "UniformBufferArrayDynamicIndexing", []⟩, ⟨29, "SampledImageArrayDynamicIndexing", []⟩,
  ⟨30, "StorageBufferArrayDynamicIndexing", []⟩, ⟨31, "StorageImageArrayDynamicIndexing", []⟩,
  ⟨32, "ClipDistance", []⟩, ⟨33, "CullDistance", []⟩, ⟨34, "ImageCubeArray", []⟩,
  ⟨35, "SampleRateShading", []⟩, ⟨36, "ImageRect", []⟩, ⟨37, "SampledRect", []⟩,
  ⟨38, "GenericPointer", []⟩, ⟨39, "Int8", []⟩, ⟨40, "InputAttachment", []⟩,
  ⟨41, "SparseResidency", []⟩, ⟨42, "MinLod", []⟩, ⟨43, "Sampled1D", []⟩, ⟨44, "Image1D", []⟩,
  ⟨45, "SampledCubeArray", []⟩, ⟨46, "SampledBuffer", []⟩, ⟨47, "ImageBuffer", []⟩,
  ⟨48, "ImageMSArray", []⟩, ⟨49, "StorageImageExtendedFormats", []⟩, ⟨50, "ImageQuery", []⟩,
  ⟨51, "DerivativeControl", []⟩, ⟨52, "InterpolationFunction", []⟩,
  ⟨53, "TransformFeedback", []⟩, ⟨54, "GeometryStreams", []⟩,
  ⟨55, "StorageImageReadWithoutFormat", []⟩, ⟨56, "StorageImageWriteWithoutFormat", []⟩,
  ⟨57, "MultiViewport", []⟩]

end Enumerant

open Enumerant in
/-- The enumerants of a kind; a kind that is not enumerated has none. -/
def OperandKind.enumerants : OperandKind → List Enumerant
  | id | resultId | literal | literalNumber | literalString => []
  | capability => capabilityValues
  | sourceLanguage => sourceLanguageValues
  | executionModel => executionModelValues
  | addressingModel => addressingModelValues
  | memoryModel => memoryModelValues
  | executionMode => executionModeValues
  | storageClass => storageClassValues
  | dimensionality => dimensionalityValues
  | samplerAddressingMode => samplerAddressingModeValues
  | samplerFilterMode => samplerFilterModeValues
  | imageFormat => imageFormatValues
  | imageOperands => imageOperandsValues
  | fpFastMathMode => fpFastMathModeValues
  | fpRoundingMode => fpRoundingModeValues
  | linkageType => linkageTypeValues
  | accessQualifier => accessQualifierValues
  | functionParameterAttribute => functionParameterAttributeValues
  | decoration => decorationValues
  | builtIn => builtInValues
  | selectionControl => selectionControlValues
  | loopControl => loopControlValues
  | functionControl => functionControlValues
  | memorySemantics => memorySemanticsValues
  | memoryAccess => memoryAccessValues
  | executionScope => executionScopeValues
  | groupOperation => groupOperationValues
  | kernelEnqueueFlags => kernelEnqueueFlagsValues
  | kernelProfilingInfo => kernelProfilingInfoValues

end Spirv

import Spirv.Word

/-!
# Extended instruction sets

* `ExtInstSet`: the instruction sets that `OpExtInstImport` can name.
* `ExtInstSet.instructions`: the numbered instructions of a set.
* `ExtInstSet.instructionName?`, `ExtInstSet.instructionNumber?`: the two ways to look one up.
-/

namespace Spirv

/-- An extended instruction set. -/
inductive ExtInstSet where
  | glslStd450
  | openClStd
deriving DecidableEq

namespace ExtInstSet

/-- The name under which a set is imported. -/
def name : ExtInstSet → String
  | glslStd450 => "GLSL.std.450"
  | openClStd => "OpenCL.std"

/-- The set that is imported under the given name. -/
def ofName? (name : String) : Option ExtInstSet := [glslStd450, openClStd].find? (·.name == name)

/-- The instructions of `GLSL.std.450`, the first of which has number 1. -/
def glslStd450Names : List String := [
  "Round", "RoundEven", "Trunc", "FAbs", "SAbs", "FSign", "SSign", "Floor", "Ceil", "Fract",
  "Radians", "Degrees", "Sin", "Cos", "Tan", "Asin", "Acos", "Atan", "Sinh", "Cosh", "Tanh",
  "Asinh", "Acosh", "Atanh", "Atan2", "Pow", "Exp", "Log", "Exp2", "Log2", "Sqrt", "InverseSqrt",
  "Determinant", "MatrixInverse", "Modf", "ModfStruct", "FMin", "UMin", "SMin", "FMax", "UMax",
  "SMax", "FClamp", "UClamp", "SClamp", "FMix", "IMix", "Step", "SmoothStep", "Fma", "Frexp",
  "FrexpStruct", "Ldexp", "PackSnorm4x8", "PackUnorm4x8", "PackSnorm2x16", "PackUnorm2x16",
  "PackHalf2x16", "PackDouble2x32", "UnpackSnorm2x16", "UnpackUnorm2x16", "UnpackHalf2x16",
  "UnpackSnorm4x8", "UnpackUnorm4x8", "UnpackDouble2x32", "Length", "Distance", "Cross",
  "Normalize", "FaceForward", "Reflect", "Refract", "FindILsb", "FindSMsb", "FindUMsb",
  "InterpolateAtCentroid", "InterpolateAtSample", "InterpolateAtOffset", "NMin", "NMax",
  "NClamp"]

/-- The mathematical instructions of `OpenCL.std`, the first of which has number 0. -/
def openClStdMathNames : List String := [
  "acos", "acosh", "acospi", "asin", "asinh", "asinpi", "atan", "atan2", "atanh", "atanpi",
  "atan2pi", "cbrt", "ceil", "copysign", "cos", "cosh", "cospi", "erfc", "erf", "exp", "exp2",
  "exp10", "expm1", "fabs", "fdim", "floor", "fma", "fmax", "fmin", "fmod", "fract", "frexp",
  "hypot", "ilogb", "ldexp", "lgamma", "lgamma_r", "log", "log2", "log10", "log1p", "logb",
  "mad", "maxmag", "minmag", "modf", "nan", "nextafter", "pow", "pown", "powr", "remainder",
  "remquo", "rint", "rootn", "round", "rsqrt", "sin", "sincos", "sinh", "sinpi", "sqrt", "tan",
  "tanh", "tanpi", "tgamma", "trunc"]

/-- Names with their numbers, counted up from `first`. -/
def numbered (first : Nat) (names : List String) : List (Word × String) :=
  (names.zipIdx first).map fun (name, number) => (UInt32.ofNat number, name)

/-- The instructions of a set with their numbers. -/
def instructions : ExtInstSet → List (Word × String)
  | glslStd450 => numbered 1 glslStd450Names
  | openClStd => numbered 0 openClStdMathNames ++ [(184, "printf"), (185, "prefetch")]

/-- The name of the instruction with the given number. -/
def instructionName? (set : ExtInstSet) (number : Word) : Option String :=
  (set.instructions.find? (·.1 == number)).map Prod.snd

/-- The number of the instruction with the given name. -/
def instructionNumber? (set : ExtInstSet) (name : String) : Option Word :=
  (set.instructions.find? (·.2 == name)).map Prod.fst

end ExtInstSet

end Spirv

import Spirv.CommandLine.FileTree
import Spirv.Grammar.Rows
import Spirv.Instruction.Builder
import Spirv.Main
import Spirv.Proofs.ByteOrder
import Spirv.Proofs.Composition
import Spirv.Proofs.Extension
import Spirv.Proofs.Fault
import Spirv.Proofs.Import
import Spirv.Proofs.Lossless
import Spirv.Proofs.Passes
import Spirv.Proofs.RoundTrip
import Spirv.Proofs.Tiling
import Spirv.Proofs.Truncation
import Spirv.Proofs.Shape
import Spirv.Proofs.WordDump
import Spirv.Proofs.WordDump.Culprit
import Spirv.Proofs.WordDump.Spacing
import Spirv.Proofs.CommandLine.Arguments
import Spirv.Proofs.CommandLine.FileTree
import Spirv.Proofs.CommandLine.Session
import Spirv.Proofs.Capacity
import Spirv.Proofs.Colour
import Spirv.Proofs.Lines
import Spirv.Proofs.Strings
import Spirv.Proofs.Result
import Spirv.Proofs.Groups
import Spirv.Proofs.Log

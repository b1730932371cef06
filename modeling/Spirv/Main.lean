import Spirv.CommandLine.Session

/-!
# The program

The command line program on the files of the system.
-/

namespace Spirv.CommandLine

/-- The fault behind a failure of the system. Some actions of the system hand on the number of the
failure with the opposite sign. -/
def faultOf : IO.Error → TransferFault
  | .noFileOrDirectory .. => .noSuchFile
  | .inappropriateType _ code _ =>
    if code = 21 || code = 0 - 21 then .isDirectory else .notDirectory
  | .invalidArgument _ code details =>
    if code = 36 || code = 0 - 36 then .nameTooLong else .other details
  | e => .other (toString e)

/-- Runs an action and keeps its failure as a fault. -/
def attempt {α : Type} (action : IO α) : IO (Except TransferFault α) := do
  try return .ok (← action) catch e => return .error (faultOf e)

/-- Everything that a stream has to give. -/
partial def drain (stream : IO.FS.Stream) (bytes : ByteArray) : IO ByteArray := do
  let more ← stream.read 65536
  if more.isEmpty then return bytes else drain stream (bytes ++ more)

/-- The files and the standard input of the system. -/
def systemHost : Host IO where
  readInput := attempt do return (← drain (← IO.getStdin) .empty).data.toList
  readFile path := attempt do return (← IO.FS.readBinFile path).data.toList
  createFile path := attempt do IO.FS.writeBinFile path .empty
  fillFile path bytes := attempt do IO.FS.writeBinFile path bytes

/-- The name of a level in the shown log. -/
def levelName : Level → String
  | .error => "ERROR"
  | .warn => "WARN"
  | .info => "INFO"
  | .debug => "DEBUG"
  | .trace => "TRACE"

/-- Runs the program and shows its outcome. -/
def runOnSystem (arguments : List String) : IO UInt32 := do
  let outcome ← run .standard systemHost arguments
  if let some complaint := outcome.complaint then
    IO.eprintln ("error: " ++ complaint)
  for r in outcome.log do
    IO.eprintln ("[" ++ levelName r.level ++ "] " ++ r.message)
  let stdout ← IO.getStdout
  stdout.write outcome.text
  stdout.flush
  return outcome.status

end Spirv.CommandLine

def main (arguments : List String) : IO UInt32 := Spirv.CommandLine.runOnSystem arguments

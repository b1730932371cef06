import Spirv.Diagnostic

/-!
# Errors

* `Error`: the ways in which an operation of the library fails as a whole.
* `TransferFault`: why a file could not be read or text could not be written.
* `Error.message`: the wording.
-/

namespace Spirv

/-- Why an input or output failed. -/
inductive TransferFault where
  /-- A bounded sink had no room for a piece of text. -/
  | noRoom
  /-- The file or a directory on the way to it does not exist. -/
  | noSuchFile
  /-- A directory stands where a file is needed. -/
  | isDirectory
  /-- A file stands where a directory is needed. -/
  | notDirectory
  /-- A path, or a name in it, has too many bytes. -/
  | nameTooLong
  /-- Anything else, in the system's words. -/
  | other (text : String)
deriving DecidableEq

/-- The wording of a fault. -/
def TransferFault.message : TransferFault → String
  | noRoom => "failed to write whole buffer"
  | noSuchFile => "No such file or directory (os error 2)"
  | isDirectory => "Is a directory (os error 21)"
  | notDirectory => "Not a directory (os error 20)"
  | nameTooLong => "File name too long (os error 36)"
  | other text => text

/-- How an operation fails. -/
inductive Error where
  /-- The binary is malformed. -/
  | invalidBinary (diagnostic : Diagnostic)
  /-- An encoded instruction would not fit its 16 bit word count. -/
  | instructionTooLong
  /-- A word dump holds something that is not a word. -/
  | invalidDump (token : String)
  /-- Reading the input or writing the output failed. -/
  | transfer (fault : TransferFault)
deriving DecidableEq

/-- The wording of an error. -/
def Error.message : Error → String
  | invalidBinary diagnostic => "invalid binary at " ++ diagnostic.message
  | instructionTooLong => "instruction word count '65535' exceeded"
  | invalidDump token => "invalid word dump: '" ++ token ++ "' is not a hexadecimal word"
  | transfer fault => "failed to write disassembly: " ++ fault.message

end Spirv

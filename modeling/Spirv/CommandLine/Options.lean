/-!
# Command line options

* `Options`: what a command line asks for.
* `Options.more`: the same with more requests for log.
* `Reply`: the answer to a command line that is not carried out.
-/

namespace Spirv.CommandLine

/-- What a command line asks for. -/
structure Options where
  /-- The module to read. -/
  input : Option String := none
  /-- Where to write the listing instead of standard output. -/
  output : Option String := none
  /-- Colour the listing for a terminal. -/
  color : Bool := false
  /-- The input is a word dump rather than a binary. -/
  hex : Bool := false
  /-- Show the header as a table before the listing. -/
  header : Bool := false
  /-- How often more log was asked for, where 255 stands for more as well. -/
  verbosity : UInt8 := 0
deriving DecidableEq

/-- The same options with `n` more requests for log. -/
def Options.more (n : Nat) (o : Options) : Options :=
  { o with verbosity := .ofNat (min (o.verbosity.toNat + n) 255) }

/-- The answer to a command line that is not carried out. -/
inductive Reply where
  /-- What was asked for, such as the help. -/
  | information (text : String)
  /-- Why the command line is refused. -/
  | refusal (complaint : String)

end Spirv.CommandLine

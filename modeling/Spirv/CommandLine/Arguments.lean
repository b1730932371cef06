import Spirv.CommandLine.Options

/-!
# Command line arguments

* `UsageError`, `Interruption`: why a command line is not carried out.
* `Token`: the shape of one argument.
* `Options.parse`: the options of a command line.
-/

namespace Spirv.CommandLine

/-! ## Answers -/

/-- Why a command line is refused. -/
inductive UsageError where
  | unknownOption (argument : String)
  | missingValue (option : String)
  | emptyValue (option : String)
  | unexpectedValue (option : String)
  | repeatedOption (option : String)
  | excessArgument (argument : String)
deriving DecidableEq

/-- The wording of a usage error. -/
def UsageError.message : UsageError → String
  | unknownOption argument => "unexpected argument '" ++ argument ++ "' found"
  | missingValue option => "a value is required for '" ++ option ++ "' but none was supplied"
  | emptyValue option => "the value of '" ++ option ++ "' is empty"
  | unexpectedValue option => "no value is allowed for '" ++ option ++ "'"
  | repeatedOption option => "the argument '" ++ option ++ "' cannot be used multiple times"
  | excessArgument argument => "unexpected argument '" ++ argument ++ "' found"

/-- What keeps a command line from being carried out. -/
inductive Interruption where
  | help
  | version
  | usage (error : UsageError)
deriving DecidableEq

/-- The help. -/
def helpText : String :=
  "A SPIR-V binary decoder and disassembler with word-level encoding primitives\n\n"
    ++ "Usage: spirv-dis [OPTIONS] [INPUT]\n\n"
    ++ "Arguments:\n"
    ++ "  [INPUT]  The module to read, `-` for standard input [default: -]\n\n"
    ++ "Options:\n"
    ++ "  -o, --output <OUTPUT>  Write the disassembly here instead of standard output\n"
    ++ "      --color            Color the output with ANSI escape codes\n"
    ++ "      --hex              The input is a text dump of hexadecimal words rather than a "
    ++ "binary\n"
    ++ "      --header           Show the module header as a table before the disassembly\n"
    ++ "  -v, --verbose...       Log more. Repeat for more detail\n"
    ++ "  -h, --help             Print help\n"
    ++ "  -V, --version          Print version\n"

/-- The name and the version of the program. -/
def versionText : String := "spirv_dis 0.1.0\n"

/-- The answer to a command line that is not carried out. -/
def Interruption.reply : Interruption → Reply
  | help => .information helpText
  | version => .information versionText
  | usage error => .refusal error.message

/-! ## Shapes -/

/-- The shape of an argument. -/
inductive Token where
  /-- `--`, behind which no argument is an option. -/
  | endOfOptions
  /-- `--name` or `--name=value`. -/
  | long (name : String) (value : Option String)
  /-- `-` and at least one letter. -/
  | short (letters : List Char)
  /-- Anything else; `-` alone is no option either. -/
  | plain (text : String)

/-- The shape of an argument. -/
def Token.ofArgument (argument : String) : Token :=
  match argument.toList with
  | ['-', '-'] => endOfOptions
  | '-' :: '-' :: body =>
    let name := String.ofList (body.takeWhile (· != '='))
    match body.dropWhile (· != '=') with
    | [] => long name none
    | _ :: value => long name (some (String.ofList value))
  | '-' :: c :: body => short (c :: body)
  | _ => plain argument

/-! ## Reading -/

/-- What can stand at a place of a command line. -/
inductive Expected where
  | anything
  /-- The value of `--output`. -/
  | outputValue
  /-- Nothing but an input, as behind `--`. -/
  | input
deriving DecidableEq

/-- Refuses a command line. -/
def refuse {α : Type} (e : UsageError) : Except Interruption α := .error (.usage e)

namespace Options

/-- Takes an argument that is no option as the input. -/
def setInput (o : Options) (text : String) : Except Interruption Options :=
  if o.input.isSome then refuse (.excessArgument text)
  else if text.isEmpty then refuse (.emptyValue "INPUT")
  else .ok { o with input := some text }

/-- Takes the value of `--output`. -/
def setOutput (o : Options) (text : String) : Except Interruption Options :=
  if o.output.isSome then refuse (.repeatedOption "--output")
  else if text.isEmpty then refuse (.emptyValue "--output")
  else .ok { o with output := some text }

/-- Takes the option with the given long name, which has no value. -/
def setFlag (o : Options) (name : String) : Except Interruption Options :=
  match name with
  | "color" => if o.color then refuse (.repeatedOption name) else .ok { o with color := true }
  | "hex" => if o.hex then refuse (.repeatedOption name) else .ok { o with hex := true }
  | "header" => if o.header then refuse (.repeatedOption name) else .ok { o with header := true }
  | "verbose" => .ok (o.more 1)
  | "help" => .error .help
  | "version" => .error .version
  | _ => refuse (.unknownOption name)

/-- Takes the letters of a short argument. What stands behind an `o` is the value of `-o`, less a
`=` in front. If nothing does, the value is still to come. -/
def setShort (o : Options) : List Char → Except Interruption (Options × Expected)
  | [] => .ok (o, .anything)
  | 'v' :: rest => setShort (o.more 1) rest
  | 'h' :: _ => .error .help
  | 'V' :: _ => .error .version
  | 'o' :: [] => .ok (o, .outputValue)
  | 'o' :: '=' :: value => (o.setOutput (String.ofList value)).map (·, .anything)
  | 'o' :: value => (o.setOutput (String.ofList value)).map (·, .anything)
  | c :: _ => refuse (.unknownOption (String.singleton c))

/-- Takes an argument of the given shape. -/
def take (o : Options) (expected : Expected) (argument : String) (token : Token) :
    Except Interruption (Options × Expected) :=
  match expected, token with
  | .input, _ => (o.setInput argument).map (·, .input)
  | .outputValue, .plain text => (o.setOutput text).map (·, .anything)
  | .outputValue, _ => refuse (.missingValue "--output")
  | .anything, .endOfOptions => .ok (o, .input)
  | .anything, .plain text => (o.setInput text).map (·, .anything)
  | .anything, .long name none =>
    if name = "output" then .ok (o, .outputValue) else (o.setFlag name).map (·, .anything)
  | .anything, .long name (some value) =>
    if name = "output" then (o.setOutput value).map (·, .anything)
    else refuse (.unexpectedValue name)
  | .anything, .short letters => o.setShort letters

/-- Takes a list of arguments from left to right. -/
def parseOnto (o : Options) (expected : Expected) : List String → Except Interruption Options
  | [] => if expected = .outputValue then refuse (.missingValue "--output") else .ok o
  | argument :: rest => do
    let (o, expected) ← o.take expected argument (Token.ofArgument argument)
    parseOnto o expected rest

/-- The options of a command line. -/
def parse (arguments : List String) : Except Interruption Options := parseOnto {} .anything arguments

end Options

end Spirv.CommandLine

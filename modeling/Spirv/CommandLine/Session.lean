import Spirv.CommandLine.Frontend
import Spirv.Listing
import Spirv.WordDump

/-!
# Command line sessions

One run of the command line program, with any frontend and over any host that can read and write
files.

* `Host`: what a session needs from the system.
* `Options.words`: the words of an input.
* `Options.session`: reads the input, makes the output and lists the module.
* `Outcome`: what a run leaves behind; `run` is the whole program.
-/

namespace Spirv.CommandLine

/-- What a session needs from the system. -/
structure Host (m : Type → Type) where
  /-- The bytes of standard input. -/
  readInput : m (Except TransferFault (List UInt8))
  /-- The bytes of a file. -/
  readFile : String → m (Except TransferFault (List UInt8))
  /-- Makes a file empty, whether it exists or not. -/
  createFile : String → m (Except TransferFault Unit)
  /-- Fills a file that was made. -/
  fillFile : String → ByteArray → m (Except TransferFault Unit)

/-- What a run of the program leaves behind. -/
structure Outcome where
  status : UInt32
  /-- What was written to standard output. -/
  text : ByteArray := .empty
  /-- The records that the verbosity shows. -/
  log : Log := #[]
  /-- Why the command line was refused. -/
  complaint : Option String := none

/-- The least important level that is shown. -/
def Options.threshold (o : Options) : Level :=
  match o.verbosity.toNat with
  | 0 => .warn
  | 1 => .info
  | 2 => .debug
  | _ => .trace

/-- The words of the bytes of an input. A word dump is read as UTF-8. -/
def Options.words (o : Options) (bytes : List UInt8) : Except Error (List Word) :=
  if o.hex then WordDump.parse (Utf8.decode bytes)
  else (wordsOfBytes bytes).mapError Error.invalidBinary

/-- The name of the input. -/
def Options.inputName (o : Options) : String := o.input.getD "-"

variable (frontend : Frontend)

/-- The records that the verbosity shows. -/
def Options.shown (o : Options) (log : Log) : Log :=
  log.filter fun r => frontend.shows o.threshold r.level

/-- What is written for the words of an input: the table of the header and an empty line if the
table is asked for, and the listing. -/
def Options.list (o : Options) (words : List Word) : Listing.Run Sink :=
  let palette := Palette.ofColor o.color
  if o.header then
    let opened := Module.ofWords words
    match opened.outcome with
    | .error d => ⟨{}, opened.log, some (.invalidBinary d)⟩
    | .ok m =>
      let table := frontend.layout (m.header.table .core)
      let run := write .core palette words (Sink.write {} (table ++ "\n")).1
      { run with log := opened.log ++ run.log }
  else write .core palette words {}

/-- The outcome of a run whose log so far is `log` and which wrote `text` to standard output. A
failure is reported last. -/
def Options.outcome (o : Options) (log : Log) (text : ByteArray) (failure : Option Error) :
    Outcome :=
  match failure with
  | none => { status := 0, text, log := o.shown frontend log }
  | some e => { status := 1, text, log := o.shown frontend (log.push ⟨.error, e.message⟩) }

variable {m : Type → Type} [Monad m] (host : Host m)

/-- Reads and parses the input, then makes the output, then lists the module. Text that was listed
before a failure reaches its destination. -/
def Options.session (o : Options) : m Outcome := do
  let input ← if o.inputName = "-" then host.readInput else host.readFile o.inputName
  match input.mapError Error.transfer >>= o.words with
  | .error e => return o.outcome frontend #[] .empty (some e)
  | .ok words =>
    let report : Record :=
      { level := .info
        message := "read " ++ toString words.length ++ " words from " ++ o.inputName }
    match o.output with
    | none =>
      let run := o.list frontend words
      return o.outcome frontend (#[report] ++ run.log) run.out.bytes run.failure
    | some path =>
      match ← host.createFile path with
      | .error fault => return o.outcome frontend #[report] .empty (some (.transfer fault))
      | .ok () =>
        let run := o.list frontend words
        let log := #[report] ++ run.log
        match ← host.fillFile path run.out.bytes with
        | .error fault =>
          return o.outcome frontend log .empty (run.failure.or (some (.transfer fault)))
        | .ok () => return o.outcome frontend log .empty run.failure

/-- The program. A command line that is not carried out does nothing but to answer. -/
def run (arguments : List String) : m Outcome :=
  match frontend.parse arguments with
  | .error (.information text) => return { status := 0, text := text.toUTF8 }
  | .error (.refusal complaint) => return { status := 2, complaint := some complaint }
  | .ok o => o.session frontend host

end Spirv.CommandLine

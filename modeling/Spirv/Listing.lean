import Spirv.Module.Basic
import Spirv.Sink

/-!
# Listings

The text of a module: a comment block that describes the header, then one line per instruction.

* `Listing.run`: hands the pieces of a listing to an outlet one by one.
* `disassemble`: the whole listing as a string, or no text if anything is wrong.
* `write`: the listing in a sink, where the lines before a failure stay.
-/

namespace Spirv

/-- The block that describes a header. -/
def Header.comment (g : Grammar) (p : Palette) (h : Header) : String :=
  p.decorate .comment ("; SPIR-V\n; Version: " ++ h.version.decimal
    ++ "\n; Generator: " ++ g.generator h.generator
    ++ "\n; Bound: " ++ h.bound.decimal
    ++ "\n; Schema: " ++ h.schema.decimal ++ "\n")

/-- The line of an instruction, its end included. -/
def Instruction.line (p : Palette) (i : Instruction) : String := i.render p ++ "\n"

namespace Listing

/-- How far a listing has come. -/
structure Run (σ : Type) where
  /-- The state of the outlet. -/
  out : σ
  log : Log
  /-- Why the listing stopped before its end. -/
  failure : Option Error

/-- Hands the lines from a cursor on to `emit`, until a line is refused or an instruction cannot be
read. An instruction is reported before its line is handed out. -/
def lines {σ : Type} (g : Grammar) (p : Palette) (emit : σ → String → σ × Option Error) (out : σ)
    (log : Log) (c : Cursor) : Run σ :=
  match _h : c.next g with
  | none => ⟨out, log, none⟩
  | some (.error d, _) => ⟨out, log.push (Item.record (.error d)), some (.invalidBinary d)⟩
  | some (.ok i, c') =>
    let log := log.push (Item.record (.ok i))
    match emit out (i.line p) with
    | (out, some e) => ⟨out, log, some e⟩
    | (out, none) => lines g p emit out log c'
termination_by c.measure
decreasing_by exact Cursor.measure_next _h

/-- Hands the listing of some loaded words to `emit` piece by piece. -/
def run {σ : Type} (g : Grammar) (p : Palette) (emit : σ → String → σ × Option Error) (out : σ)
    (words : List Word) : Run σ :=
  let opened := Module.ofWords words
  match opened.outcome with
  | .error d => ⟨out, opened.log, some (.invalidBinary d)⟩
  | .ok m =>
    match emit out (m.header.comment g p) with
    | (out, some e) => ⟨out, opened.log, some e⟩
    | (out, none) => lines g p emit out opened.log (.first m)

end Listing

/-- The listing of some loaded words. There is no text if the module cannot be read to its end. -/
def disassemble (g : Grammar) (p : Palette) (words : List Word) : Logged (Except Error String) :=
  let run := Listing.run g p (fun text piece => (text ++ piece, none)) "" words
  match run.failure with
  | none => ⟨.ok run.out, run.log⟩
  | some e => ⟨.error e, run.log⟩

/-- Writes the listing of some loaded words to a sink. -/
def write (g : Grammar) (p : Palette) (words : List Word) (sink : Sink) : Listing.Run Sink :=
  Listing.run g p Sink.write sink words

end Spirv

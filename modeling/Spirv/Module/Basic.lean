import Spirv.Error
import Spirv.Header
import Spirv.Instruction.Basic

/-!
# Modules

Reading a module from its first word to its last.

* `Module`: the header of a module and the words behind it.
* `Module.ofWords`: finds the byte order and reads the header of some loaded words.
* `Cursor`: a place in a module from which instructions are read.
* `Cursor.next`: reads one instruction; `Cursor.items` reads them all, up to `Cursor.last`.
* `Item.record`: what is reported about each of them; `Cursor.log` gathers it.
-/

namespace Spirv

/-- A module whose header has been read. -/
structure Module where
  order : ByteOrder
  header : Header
  /-- The words behind the header, as they were loaded. -/
  code : List Word

/-- Finds the byte order of some loaded words and reads the header. -/
def Module.ofWords (words : List Word) : Logged (Except Diagnostic Module) :=
  let detected := ByteOrder.detect words
  match detected.outcome with
  | .error d => ⟨.error d, detected.log⟩
  | .ok order =>
    match Header.read words order with
    | .error d => ⟨.error d, detected.log⟩
    | .ok header =>
      ⟨.ok ⟨order, header, words.drop Header.size⟩, detected.log ++ header.records⟩

/-- What reading an instruction gives. -/
abbrev Item := Except Diagnostic Instruction

/-- What is reported about an item: the place and the plain line of an instruction, or that reading
stopped. -/
def Item.record : Item → Record
  | .ok i =>
    { level := .trace
      message := String.ofList ((toString i.position).toList.leftpad 6 ' ') ++ ": "
        ++ i.render .plain }
  | .error d =>
    { level := .debug
      message := "disassembly stopped: " ++ (Error.invalidBinary d).message }

/-- A place in a module from which instructions are read. -/
structure Cursor where
  /-- The byte order of the module. -/
  order : ByteOrder
  /-- The index of the next word in the module. -/
  position : Nat
  /-- The words from there on, as they were loaded. -/
  rest : List Word
  /-- The extended instruction set that was imported last. -/
  imported : Option ExtInstSet := none
  /-- Whether an instruction could not be read. Nothing is read after it. -/
  failed : Bool := false

namespace Cursor

/-- The place of the first instruction. -/
def first (m : Module) : Cursor := { order := m.order, position := Header.size, rest := m.code }

/-- Reads the next instruction; there is none at the end and none after a failure. -/
def next (g : Grammar) (c : Cursor) : Option (Item × Cursor) :=
  if c.failed || c.rest.isEmpty then none
  else
    let stopped := { c with failed := true }
    match Instruction.read g c.order c.imported c.position c.rest with
    | .error d => some (.error d, stopped)
    | .ok (i, imported) =>
      if i.taken = i.wordCount then
        some (.ok i, { c with
          position := c.position + i.taken
          rest := c.rest.drop i.taken
          imported })
      else
        some (.error ⟨c.position, none, .wordCountMismatch i.opcode i.wordCount i.taken⟩, stopped)

/-- A bound for the instructions that are still to come. -/
def measure (c : Cursor) : Nat := if c.failed then 0 else c.rest.length

/-- Every read makes progress. -/
theorem measure_next {g : Grammar} {c c' : Cursor} {item : Item}
    (h : c.next g = some (item, c')) : c'.measure < c.measure := by
  unfold next at h
  split at h
  · contradiction
  · next hlive =>
    simp only [Bool.or_eq_true, List.isEmpty_iff, not_or, Bool.not_eq_true] at hlive
    have hpos : 0 < c.rest.length := List.length_pos_iff.mpr hlive.2
    split at h
    · cases h
      simpa [measure, hlive.1] using hpos
    · split at h
      · cases h
        simp only [measure, hlive.1, Bool.false_eq_true, if_false, List.length_drop,
          Instruction.taken]
        omega
      · cases h
        simpa [measure, hlive.1] using hpos

/-- Reads from a cursor to the end. The items are appended to `acc`. -/
def runOnto (g : Grammar) (acc : Array Item) (c : Cursor) : Array Item × Cursor :=
  match _h : c.next g with
  | none => (acc, c)
  | some (item, c') => runOnto g (acc.push item) c'
termination_by c.measure
decreasing_by exact measure_next _h

/-- The items from a cursor on: instructions, and at the end the failure if there is one. -/
def items (g : Grammar) (c : Cursor) : List Item := (c.runOnto g #[]).1.toList

/-- The place at which reading from a cursor ends. -/
def last (g : Grammar) (c : Cursor) : Cursor := (c.runOnto g #[]).2

/-- Reads from a cursor to the end and reports each item as it is read. The records are appended to
`log`. -/
def logOnto (g : Grammar) (log : Log) (c : Cursor) : Log :=
  match _h : c.next g with
  | none => log
  | some (item, c') => logOnto g (log.push (Item.record item)) c'
termination_by c.measure
decreasing_by exact measure_next _h

/-- What is reported while reading from a cursor to the end. -/
def log (g : Grammar) (c : Cursor) : Log := c.logOnto g #[]

end Cursor

end Spirv

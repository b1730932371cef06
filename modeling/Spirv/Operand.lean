import Spirv.Diagnostic
import Spirv.Fragment
import Spirv.Grammar.Basic
import Spirv.Text.Packed

/-!
# Operands

Reading the operands of one instruction. Words are given as they were loaded, and each of them is
corrected where it is read.

* `Operand`: an operand that has been read, with the words it took.
* `Operand.read`: reads the operand of a given kind at the start of some words.
* `Operand.Progress`, `Operand.readAll`: reads all operands of an instruction from left to right.
-/

namespace Spirv

/-- An operand that has been read. -/
structure Operand where
  kind : OperandKind
  first : Word
  /-- The words after the first, which only strings have. -/
  more : List Word
  /-- The text of the operand. -/
  fragment : Fragment
deriving DecidableEq

namespace Operand

/-- The words that an operand took, in the order of the host. -/
def words (o : Operand) : List Word := o.first :: o.more

/-! ## One operand -/

/-- The text of an operand that is one word.

The number of an extended instruction is shown as its name in the set that was imported last. Other
numbers and ids are shown in decimal, values of enumerated kinds by name. -/
def text (g : Grammar) (opcode : Opcode) (imported : Option ExtInstSet) (kind : OperandKind)
    (word : Word) : Except Cause Fragment :=
  match kind with
  | .id => .ok ⟨some .id, "%" ++ word.decimal⟩
  | .resultId => .ok ⟨some .resultId, "%" ++ word.decimal⟩
  | .literal => .ok ⟨some .literal, word.decimal⟩
  | .literalNumber =>
    if opcode = .opExtInst then
      match imported with
      | none => .error .noExtInstSet
      | some set =>
        match g.extInst set word with
        | none => .error (.unknownExtInst set word)
        | some name => .ok ⟨some .literal, name⟩
    else .ok ⟨some .literal, word.decimal⟩
  | kind =>
    match g.enumerant kind word with
    | none => .error (.unknownEnumerant kind word)
    | some enumerant => .ok ⟨none, enumerant.name⟩

/-- The extended instruction set that is selected after a string operand: `OpExtInstImport` selects
the set that its string names. -/
def select (g : Grammar) (opcode : Opcode) (imported : Option ExtInstSet) (name : String) :
    Except Cause (Option ExtInstSet) :=
  if opcode = .opExtInstImport then
    match g.extInstSet name with
    | none => .error (.unknownExtInstSet name)
    | some set => .ok (some set)
  else .ok imported

/-- Reads the operand of the given kind at the start of `words`, which stand at `position` of a
module in the given order. The second component is the extended instruction set that is selected
after it. A string may reach past the end of the instruction. -/
def read (g : Grammar) (order : ByteOrder) (opcode : Opcode) (imported : Option ExtInstSet)
    (kind : OperandKind) (position : Nat) (words : List Word) :
    Except Diagnostic (Operand × Option ExtInstSet) :=
  match words with
  | [] => .error ⟨position, none, .missingOperand kind⟩
  | word :: rest =>
    let first := order.fix word
    if kind = .literalString then
      match Packed.read? order (word :: rest) with
      | none => .error ⟨position, none, .unterminatedString⟩
      | some (string, count) =>
        match select g opcode imported string with
        | .error cause => .error ⟨position, some first, cause⟩
        | .ok imported =>
          .ok (⟨kind, first, (rest.take count).map order.fix, some .string, string⟩, imported)
    else
      match text g opcode imported kind first with
      | .error cause => .error ⟨position, some first, cause⟩
      | .ok fragment => .ok (⟨kind, first, [], fragment⟩, imported)

/-! ## All operands of an instruction -/

/-- How far reading the operands of an instruction has come. -/
structure Progress where
  /-- The operands that have been read. -/
  done : Array Operand := #[]
  /-- The last enumerant with parameters among the operands at fixed positions. -/
  active : Option Enumerant := none
  /-- The extended instruction set that was imported last. -/
  imported : Option ExtInstSet

/-- The enumerant whose parameters decide about the operands past the fixed positions, once the
operand at position `index` is known to start with `word`. -/
def activate (g : Grammar) (f : Format) (active : Option Enumerant) (index : Nat) (word : Word) :
    Option Enumerant :=
  match f.fixed[index]? with
  | none => active
  | some kind =>
    match g.enumerant kind word with
    | none => active
    | some enumerant => if enumerant.parameters.isEmpty then active else some enumerant

/-- Reads operands from `words`, which stand at `position` of a module in the given order, until
they take the `left` words that remain of the instruction. If the words end before, the diagnostic
is `truncated`. -/
def readAll (g : Grammar) (order : ByteOrder) (f : Format) (truncated : Diagnostic)
    (left position : Nat) (words : List Word) (p : Progress) : Except Diagnostic Progress :=
  match left, words with
  | 0, _ => .ok p
  | _ + 1, [] => .error truncated
  | left + 1, word :: rest =>
    let first := order.fix word
    let index := p.done.size
    let active := activate g f p.active index first
    match f.kindAt? active index with
    | none => .error ⟨position, some first, .excessOperand f.opcode (index + 1)⟩
    | some kind =>
      match read g order f.opcode p.imported kind position (word :: rest) with
      | .error d => .error d
      | .ok (operand, imported) =>
        let more := operand.more.length
        readAll g order f truncated (left - more) (position + 1 + more) (rest.drop more)
          ⟨p.done.push operand, active, imported⟩
termination_by left

end Operand

end Spirv

import Spirv.ByteOrder

/-!
# Module header

The five words that every module starts with.

* `Header.read`: the header of a list of loaded words.
* `Header.ofBound`, `Header.words`: the header of a new module and its words.
* `Header.write`: a new header in place of the first words of a buffer.
-/

namespace Spirv

/-- The preamble of a module. -/
structure Header where
  magic : Word
  version : Word
  generator : Word
  /-- Every id of the module is less than this. -/
  bound : Word
  /-- Reserved, zero. -/
  schema : Word
deriving DecidableEq

namespace Header

/-- The number of words of a header. -/
def size : Nat := 5

/-- The header of a new module whose ids are all less than `bound`. -/
def ofBound (bound : Word) : Header where
  magic := magicNumber
  version := 0x00010000
  generator := 0
  bound
  schema := 0

/-- The words of a header. -/
def words (h : Header) : List Word := [h.magic, h.version, h.generator, h.bound, h.schema]

/-- The header of a module in the given byte order. -/
def read (words : List Word) (order : ByteOrder) : Except Diagnostic Header :=
  match words with
  | magic :: version :: generator :: bound :: schema :: _ =>
    .ok ⟨order.fix magic, order.fix version, order.fix generator, order.fix bound,
      order.fix schema⟩
  | _ => .error ⟨words.length, none, .truncatedHeader words.length⟩

/-- Puts the header of a new module in place of the first words of a buffer. -/
def write (buffer : List Word) (bound : Word) : Except Diagnostic (List Word) :=
  if buffer.length < size then .error ⟨0, none, .shortHeaderBuffer buffer.length⟩
  else .ok ((ofBound bound).words ++ buffer.drop size)

/-- What is reported about a header that was read. -/
def records (h : Header) : Log :=
  let summary : Record :=
    { level := .debug
      message := "module header: version " ++ h.version.hexPadded ++ ", generator "
        ++ h.generator.decimal ++ ", bound " ++ h.bound.decimal }
  let reserved : Record :=
    { level := .warn, message := "module header has reserved schema " ++ h.schema.decimal }
  if h.schema = 0 then #[summary] else #[summary, reserved]

end Header

end Spirv

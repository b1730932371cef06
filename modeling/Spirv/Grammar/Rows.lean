import Spirv.Grammar.Basic

/-!
# Grammars from rows

* `Grammar.Rows`: a grammar written down as tables.
* `Grammar.ofRows`: the grammar in which the first matching row answers, and another grammar where
  no row does.
-/

namespace Spirv.Grammar

/-- A grammar as tables, one list of rows for each look-up. -/
structure Rows where
  opcodes : List (UInt16 × Format) := []
  enumerants : List (OperandKind × Enumerant) := []
  sets : List (String × ExtInstSet) := []
  instructions : List (ExtInstSet × Word × String) := []
  generators : List (Word × String) := []

/-- The grammar that answers nothing, with `?` for the name of every generator. -/
def empty : Grammar where
  opcode _ := none
  enumerant _ _ := none
  extInstSet _ := none
  extInst _ _ := none
  generator _ := "?"

/-- The grammar in which the first matching row answers; `fallback` answers where no row does. -/
def ofRows (rows : Rows) (fallback : Grammar := empty) : Grammar where
  opcode number :=
    ((rows.opcodes.find? (·.1 == number)).map Prod.snd).or (fallback.opcode number)
  enumerant kind value :=
    ((rows.enumerants.find? fun row => row.1 == kind && row.2.value == value).map Prod.snd).or
      (fallback.enumerant kind value)
  extInstSet name :=
    ((rows.sets.find? (·.1 == name)).map Prod.snd).or (fallback.extInstSet name)
  extInst set number :=
    ((rows.instructions.find? fun row => row.1 == set && row.2.1 == number).map (·.2.2)).or
      (fallback.extInst set number)
  generator word :=
    ((rows.generators.find? (·.1 == word)).map Prod.snd).getD (fallback.generator word)

end Spirv.Grammar

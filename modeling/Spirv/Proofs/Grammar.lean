import Mathlib.Data.List.Chain
import Mathlib.Data.List.Nodup
import Spirv.Grammar.Basic

/-!
# The core grammar

What can be told back from what the core grammar answers.

- `Opcode.mem_all`: the list of opcodes is complete, so that what holds of all of them can be
  decided (`Opcode.decidableForall`).
- `Opcode.ofCode?_eq_some_iff`: an opcode is found by its number and by no other.
- `Grammar.core_enumerant_injective`, `Grammar.core_extInst_injective`: the enumerants of a kind and
  the instructions of a set have different names.
-/

namespace Spirv

/-- A row that is found by its key is a row of the table and has that key. -/
theorem mem_of_find?_key {α κ : Type} [BEq κ] [LawfulBEq κ] (key : α → κ) {rows : List α} {k : κ}
    {row : α} (h : rows.find? (key · == k) = some row) : row ∈ rows ∧ key row = k := by
  have hkey : (key row == k) = true := List.find?_some (p := (key · == k)) h
  exact ⟨List.mem_of_find?_eq_some h, eq_of_beq hkey⟩

namespace Opcode

theorem map_ctorIdx_all : all.map Opcode.ctorIdx = List.range 294 := by decide +kernel

theorem ctorIdx_lt (o : Opcode) : o.ctorIdx < 294 := by
  cases o <;> decide

theorem mem_all (o : Opcode) : o ∈ all := by
  have hmem : o.ctorIdx ∈ all.map Opcode.ctorIdx := by
    rw [map_ctorIdx_all, List.mem_range]
    exact ctorIdx_lt o
  obtain ⟨o', ho', heq⟩ := List.mem_map.mp hmem
  rwa [← ofNat_ctorIdx o, ← heq, ofNat_ctorIdx]

theorem forall_iff {p : Opcode → Prop} : (∀ o, p o) ↔ ∀ o ∈ all, p o :=
  ⟨fun h o _ => h o, fun h o => h o o.mem_all⟩

/-- What holds of every opcode can be found out by going through them. -/
instance decidableForall {p : Opcode → Prop} [DecidablePred p] : Decidable (∀ o, p o) :=
  decidable_of_iff _ forall_iff.symm

/-- The opcodes are listed in the order of their numbers. -/
theorem isChain_code : (all.map code).IsChain (· < ·) := by decide +kernel

theorem nodup_code : (all.map code).Nodup :=
  isChain_code.pairwise.imp fun h => UInt16.ne_of_lt h

/-- Opcodes have different numbers. -/
theorem code_injective {o o' : Opcode} (h : o.code = o'.code) : o = o' :=
  List.inj_on_of_nodup_map nodup_code o.mem_all o'.mem_all h

/-- **An opcode is found by its number.** -/
theorem ofCode?_eq_some_iff {number : UInt16} {o : Opcode} :
    ofCode? number = some o ↔ o.code = number := by
  constructor
  · intro h
    exact (mem_of_find?_key code h).2
  · rintro rfl
    have hsome : (ofCode? o.code).isSome :=
      List.find?_isSome.mpr ⟨o, o.mem_all, beq_self_eq_true _⟩
    obtain ⟨o', ho'⟩ := Option.isSome_iff_exists.mp hsome
    rw [ho', code_injective (mem_of_find?_key code ho').2]

end Opcode

/-- A set is imported under its name and no other. -/
theorem ExtInstSet.eq_name_of_ofName? {name : String} {set : ExtInstSet}
    (h : ofName? name = some set) : name = set.name :=
  (mem_of_find?_key ExtInstSet.name h).2.symm

namespace Grammar

@[simp] theorem core_opcode_code (o : Opcode) : core.opcode o.code = some (coreFormat o) := by
  show (Opcode.ofCode? o.code).map coreFormat = _
  rw [Opcode.ofCode?_eq_some_iff.mpr rfl, Option.map_some]

/-- The format of an opcode tells its number. -/
theorem eq_code_of_core_opcode {number : UInt16} {f : Format} (h : core.opcode number = some f) :
    number = f.opcode.code ∧ f = coreFormat f.opcode := by
  obtain ⟨o, ho, rfl⟩ := Option.map_eq_some_iff.mp h
  exact ⟨(Opcode.ofCode?_eq_some_iff.mp ho).symm, rfl⟩

/-- Only the enumerated kinds have enumerants. -/
theorem isEnumerated_of_core_enumerant {kind : OperandKind} {w : Word} {e : Enumerant}
    (h : core.enumerant kind w = some e) : kind.isEnumerated = true := by
  by_contra hkind
  have hnone : kind.enumerants = [] := by
    cases kind <;> first | exact absurd rfl hkind | rfl
  have hmem := List.mem_of_find?_eq_some h
  rw [hnone] at hmem
  exact absurd hmem List.not_mem_nil

theorem nodup_enumerant_names (kind : OperandKind) :
    (kind.enumerants.map Enumerant.name).Nodup := by
  cases kind <;> decide +kernel

/-- The enumerants of a kind have different names. -/
theorem core_enumerant_injective {kind : OperandKind} {v w : Word} {e e' : Enumerant}
    (hv : core.enumerant kind v = some e) (hw : core.enumerant kind w = some e')
    (h : e.name = e'.name) : v = w := by
  obtain ⟨hmem, hvalue⟩ := mem_of_find?_key Enumerant.value hv
  obtain ⟨hmem', hvalue'⟩ := mem_of_find?_key Enumerant.value hw
  have heq : e = e' := List.inj_on_of_nodup_map (nodup_enumerant_names kind) hmem hmem' h
  rw [← hvalue, ← hvalue', heq]

theorem nodup_instruction_names (set : ExtInstSet) :
    (set.instructions.map Prod.snd).Nodup := by
  cases set <;> decide +kernel

theorem mem_of_core_extInst {set : ExtInstSet} {w : Word} {name : String}
    (h : core.extInst set w = some name) : (w, name) ∈ set.instructions := by
  obtain ⟨row, hrow, rfl⟩ := Option.map_eq_some_iff.mp h
  obtain ⟨hmem, rfl⟩ := mem_of_find?_key Prod.fst hrow
  exact hmem

/-- The instructions of a set have different names. -/
theorem core_extInst_injective {set : ExtInstSet} {v w : Word} {name : String}
    (hv : core.extInst set v = some name) (hw : core.extInst set w = some name) : v = w :=
  congrArg Prod.fst (List.inj_on_of_nodup_map (nodup_instruction_names set)
    (mem_of_core_extInst hv) (mem_of_core_extInst hw) rfl)

end Grammar

end Spirv

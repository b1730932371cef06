import Spirv.Proofs.Run

/-!
# Result ids

Where the result id of an instruction stands, and what is left of the operands without it.

- `Instruction.Splits`: the operands of an instruction are its result and its arguments before and
  behind it.
- `Format.getElem?_of_resultIndex`, `Format.isSome_resultIndex_iff`: a format names the position of
  its first result id, if it has any.
- `Grammar.core_resultIndex`: in the core grammar only operands of one word stand before the result
  id, and no instruction that is long enough ends before it.
- `Instruction.Written.exists_result`: so it is one of the operands, at the word that its position
  says.
- `Instruction.exists_splits`: the other operands are the arguments.
- `result_ids_found`: the result ids of a module.
-/

namespace Spirv

open Operand

/-! ## Results and arguments -/

/-- `i.Splits before o after`: the result of the instruction `i` is its operand `o`, and its
arguments are the operands before and behind it. -/
structure Instruction.Splits (i : Instruction) (before : List Operand) (o : Operand)
    (after : List Operand) : Prop where
  operands_eq : i.operands = before ++ o :: after
  result_eq : i.result = some o
  arguments_eq : i.arguments = before ++ after

/-- All operands but one are arguments. -/
theorem Instruction.Splits.length_arguments {i : Instruction} {before after : List Operand}
    {o : Operand} (h : i.Splits before o after) : i.arguments.length + 1 = i.operands.length := by
  rw [h.arguments_eq, h.operands_eq, List.length_append, List.length_append, List.length_cons,
    Nat.add_assoc]

/-! ## Formats -/

namespace Format

variable {f : Format}

theorem getElem?_of_resultIndex {k : Nat} (h : f.resultIndex = some k) :
    f.fixed[k]? = some .resultId := by
  obtain ⟨hk, hkind, -⟩ := List.findIdx?_eq_some_iff_getElem.mp h
  rw [List.getElem?_eq_getElem hk, eq_of_beq hkind]

theorem isSome_resultIndex_iff : f.resultIndex.isSome ↔ .resultId ∈ f.fixed := by
  rw [resultIndex, List.findIdx?_isSome, List.any_eq_true]
  constructor
  · rintro ⟨kind, hmem, hkind⟩
    exact eq_of_beq hkind ▸ hmem
  · exact fun h => ⟨.resultId, h, rfl⟩

end Format

/-- Strings stand behind the result id, and the smallest word count reaches it. -/
theorem Grammar.core_resultIndex : ∀ (o : Opcode), ∀ k ∈ (coreFormat o).resultIndex,
    .literalString ∉ (coreFormat o).fixed.take k ∧ k + 2 ≤ (coreFormat o).minWordCount := by
  decide +kernel

/-! ## Instructions -/

namespace Instruction

variable {imported : Option ExtInstSet} {i : Instruction} {ws : List Word}

/-- The operand at the position of the result id is the result, and the others are the arguments. -/
theorem exists_splits {k : Nat} {o : Operand} (hindex : i.resultIndex = some k)
    (ho : i.operands[k]? = some o) :
    ∃ before after, i.Splits before o after ∧ before.length = k := by
  obtain ⟨hk, hget⟩ := List.getElem?_eq_some_iff.mp ho
  refine ⟨i.operands.take k, i.operands.drop (k + 1), ⟨?_, ?_, ?_⟩, ?_⟩
  · rw [← hget, List.getElem_cons_drop, List.take_append_drop]
  · rw [result, hindex, Option.bind_some, ho]
  · unfold arguments
    rw [hindex]
    exact List.eraseIdx_eq_take_drop_succ i.operands k
  · rw [List.length_take, Nat.min_eq_left (Nat.le_of_lt hk)]

/-- Without a position for the result id there is none, and all operands are arguments. -/
theorem result_of_resultIndex_eq_none (h : i.resultIndex = none) :
    i.result = none ∧ i.arguments = i.operands := by
  simp [result, arguments, h]

/-- **The result id** is one of the operands, and its word stands where the format says. -/
theorem Written.exists_result (h : Written .core imported i ws) {k : Nat}
    (hk : (Grammar.coreFormat i.opcode).resultIndex = some k) :
    ∃ v, ws[k + 1]? = some v ∧
      i.operands[k]? = some ⟨.resultId, v, [], ⟨some .resultId, "%" ++ v.decimal⟩⟩ := by
  obtain ⟨hfits, hleast, ⟨first, rfl, -, -⟩, -⟩ := h.fits_coreFormat
  obtain ⟨hone, hreach⟩ := Grammar.core_resultIndex i.opcode k hk
  obtain ⟨⟨kind, v, more, fragment⟩, ho, rfl, hshows, hword⟩ :=
    hfits.exists_fixed (Format.getElem?_of_resultIndex hk) hone (by omega)
  refine ⟨v, hword, ?_⟩
  dsimp only [words] at hshows
  cases hshows with
  | resultId => exact ho
  | enumerant henum => cases henum

end Instruction

open Instruction

/-! ## Modules -/

section

variable {order : ByteOrder} {words : List Word} {position : Nat}

/-- A word of what stands at a position is a word of the module. -/
theorem exists_getElem?_of_prefix {own : List Word}
    (h : own <+: (words.drop position).map order.fix) {n : Nat} {v : Word} (hv : own[n]? = some v) :
    ∃ word, words[position + n]? = some word ∧ order.fix word = v := by
  obtain ⟨rest, hown⟩ := h
  have hlt := (List.getElem?_eq_some_iff.mp hv).1
  rwa [← List.getElem?_append_left hlt, hown, List.getElem?_map, Option.map_eq_some_iff,
    List.getElem?_drop] at hv

/-- What stands behind the first word of an instruction are the words behind its position. -/
theorem eq_map_take_of_prefix {first : Word} {body : List Word}
    (h : first :: body <+: (words.drop position).map order.fix) :
    body = ((words.drop (position + 1)).take body.length).map order.fix := by
  obtain ⟨rest, hown⟩ := h
  have htail := congrArg List.tail hown
  rw [List.cons_append, List.tail_cons, ← List.map_tail, List.tail_drop] at htail
  rw [List.map_take, ← htail, List.take_left]

end

/-- **Result ids are found, and in the right place.** An instruction of a module has a result
exactly if the format of its opcode lists a result id. It is then the id of the word at the first
position where the format lists one. The arguments are the other operands in the order in which they
are encoded; without a result they are all the operands. -/
theorem result_ids_found {words : List Word} {m : Module}
    (hm : (Module.ofWords words).outcome = .ok m) {i : Instruction}
    (hi : .ok i ∈ (Cursor.first m).items .core) :
    ∃ first f, words[i.position]? = some first ∧
      Grammar.core.opcode (m.order.fix first).opcodeNumber = some f ∧ i.opcode = f.opcode ∧
      i.wordCount = (m.order.fix first).wordCount ∧
      i.operands.flatMap Operand.words =
        ((words.drop (i.position + 1)).take (i.wordCount - 1)).map m.order.fix ∧
      (i.result.isSome ↔ .resultId ∈ f.fixed) ∧
      (i.result = none → i.arguments = i.operands) ∧
      ∀ o, i.result = some o → ∃ k word before after, f.resultIndex = some k ∧
        words[i.position + 1 + k]? = some word ∧
        o.fragment = ⟨some .resultId, "%" ++ (m.order.fix word).decimal⟩ ∧
        i.Splits before o after ∧ before.length = k ∧
        i.arguments.length + 1 = i.operands.length := by
  obtain ⟨imported, own, hwritten, hown⟩ := Cursor.exists_written_at hm hi
  have hlen := hwritten.length_eq
  obtain ⟨-, -, ⟨first, hfirst, hnumber, hcount⟩, hindex⟩ := hwritten.fits_coreFormat
  have hbody : i.operands.flatMap Operand.words =
      ((words.drop (i.position + 1)).take (i.wordCount - 1)).map m.order.fix := by
    rw [hfirst, List.length_cons] at hlen
    rw [← hlen, Nat.add_sub_cancel]
    exact eq_map_take_of_prefix (hfirst ▸ hown)
  obtain ⟨word, hposition, rfl⟩ :=
    exists_getElem?_of_prefix hown (n := 0) (v := first) (by rw [hfirst]; rfl)
  refine ⟨word, Grammar.coreFormat i.opcode, hposition, ?_, rfl, hcount.symm, hbody, ?_⟩
  · rw [hnumber, Grammar.core_opcode_code]
  rw [← Format.isSome_resultIndex_iff]
  rcases hk : (Grammar.coreFormat i.opcode).resultIndex with _ | k
  · obtain ⟨hnone, harguments⟩ := result_of_resultIndex_eq_none (hindex.trans hk)
    rw [hnone]
    exact ⟨Iff.rfl, fun _ => harguments, fun o ho => by contradiction⟩
  · obtain ⟨v, hv, ho⟩ := hwritten.exists_result hk
    obtain ⟨before, after, hsplits, hbefore⟩ := exists_splits (hindex.trans hk) ho
    obtain ⟨word, hplace, rfl⟩ := exists_getElem?_of_prefix hown hv
    rw [hsplits.result_eq]
    refine ⟨by simp, fun hnone => by contradiction, fun o ho => ?_⟩
    cases ho
    refine ⟨k, word, before, after, rfl, ?_, rfl, hsplits, hbefore, hsplits.length_arguments⟩
    rw [Nat.add_assoc, Nat.add_comm 1]
    exact hplace

/-- The second operand of `OpTypeVoid` is read as a result id like the first, but it is the first
that is the result. -/
theorem result_ids_found_type_void :
    let words := [magicNumber, 0x00010000, 0, 10, 0, 0x00030013, 7, 9]
    ∃ m i o after, (Module.ofWords words).outcome = .ok m ∧
      .ok i ∈ (Cursor.first m).items .core ∧ o.fragment = ⟨some .resultId, "%7"⟩ ∧
      i.Splits [] o after ∧ after.map (·.fragment.text) = ["%9"] := by
  intro words
  let m : Module := ⟨.little, .ofBound 10, words.drop 5⟩
  let result : Operand := ⟨.resultId, 7, [], ⟨some .resultId, "%7"⟩⟩
  let other : Operand := ⟨.resultId, 9, [], ⟨some .resultId, "%9"⟩⟩
  let i : Instruction := ⟨.opTypeVoid, 5, 3, some 0, [result, other]⟩
  have hm : (Module.ofWords words).outcome = .ok m := rfl
  have hi : .ok i ∈ (Cursor.first m).items .core := by
    rw [show (Cursor.first m).items .core = [.ok i] by decide +kernel]
    exact List.mem_singleton_self _
  obtain ⟨first, f, hfirst, hf, -, -, -, -, -, hresult⟩ := result_ids_found hm hi
  obtain ⟨k, word, before, after, hk, -, -, hsplits, hbefore, -⟩ := hresult result rfl
  cases hfirst
  obtain rfl : f = Grammar.coreFormat .opTypeVoid := by
    rw [show (m.order.fix 0x00030013).opcodeNumber = Opcode.opTypeVoid.code by decide,
      Grammar.core_opcode_code] at hf
    exact (Option.some.inj hf).symm
  cases hk
  cases List.eq_nil_of_length_eq_zero hbefore
  obtain rfl : [other] = after := (List.cons.inj hsplits.operands_eq).2
  exact ⟨m, i, result, [other], hm, hi, rfl, hsplits, rfl⟩

end Spirv

import Spirv.Proofs.Run

/-!
# Groups of operands

What may stand behind the fixed operands of an instruction, and how early the instruction may end.

- `Format.kindAt_parameter_iff`, `Format.KindAt.pair_eq`: the kinds behind an enumerant that decides
  and those of pairs, position by position.
- `Grammar.core_parameters`: in the core grammar only the last fixed operand brings others with it,
  so it decides as soon as it has any (`Format.Holds.core_decides`).
- `Format.Fits.prefix_parameters`, `Format.Fits.kind_eq_of_pairs`: the operands of an instruction.
- `Instruction.shortened`: an instruction without its last operands. It is an instruction as long as
  its words reach as far as its format asks for (`Instruction.Written.shortened`).
- `operand_groups`: the groups in the instructions of a module.
-/

namespace Spirv

open Operand

/-! ## Formats -/

namespace Format

variable {g : Grammar} {f : Format} {segments : List (List Word)} {n : Nat} {kind : OperandKind}

/-- Behind an enumerant that decides stand its parameters. -/
theorem kindAt_parameter_iff {e : Enumerant} (he : Decides g f segments (some e)) :
    f.KindAt g segments (f.fixed.length + n) kind ↔ e.parameters[n]? = some kind := by
  rw [← kindAt?_active_eq_some_iff, decides_iff.mp he]
  unfold kindAt?
  rw [if_neg (by omega), Nat.add_sub_cancel_left]

/-- Pairs begin with the last two fixed positions. -/
theorem KindAt.pair_eq (hnone : Decides g f segments none) (hpairs : f.Alternates)
    (h : f.KindAt g segments (f.fixed.length - 2 + n) kind) :
    f.fixed[f.fixed.length - 2 + n % 2]? = some kind := by
  have hlen := hpairs.2
  have hlt : f.fixed.length - 2 + n % 2 < f.fixed.length := by omega
  rw [List.getElem?_eq_getElem hlt, Option.some_inj]
  by_cases hn : n < 2
  · rw [← Nat.mod_eq_of_lt hn] at h
    exact KindAt.unique (.fixed (List.getElem?_eq_getElem hlt)) h
  · obtain ⟨k, rfl⟩ := Nat.exists_eq_add_of_le' (Nat.le_of_not_lt hn)
    have hposition : f.fixed.length - 2 + (k + 2) = f.fixed.length + k := by omega
    have hk : f.fixed[f.fixed.length - 2 + k % 2]? =
        some (f.fixed[f.fixed.length - 2 + (k + 2) % 2]) := by
      rw [← List.getElem?_eq_getElem hlt, Nat.add_mod_right]
    rw [hposition] at h
    exact KindAt.unique (.pair hnone hpairs hk) h

theorem Holds.lt_length_fixed {j : Nat} {e : Enumerant} (h : f.Holds g segments j e) :
    j < f.fixed.length := by
  obtain ⟨_, _, _, hkind, _⟩ := h
  exact (List.getElem?_eq_some_iff.mp hkind).1

/-- Nothing decides if no fixed kind is enumerated. -/
theorem decides_none (h : ∀ kind ∈ f.fixed, kind.isEnumerated = false) :
    Decides .core f segments none := by
  refine .nothing fun j e hholds => ?_
  obtain ⟨kind, word, more, hkind, -, he, -⟩ := hholds
  have henum := Grammar.isEnumerated_of_core_enumerant he
  rw [h kind (List.mem_of_getElem? hkind)] at henum
  contradiction

/-- A kind is one of the fixed kinds or that of a parameter. -/
theorem KindAt.mem (h : f.KindAt .core segments n kind) :
    kind ∈ f.fixed ∨ ∃ k ∈ f.fixed, ∃ e ∈ k.enumerants, kind ∈ e.parameters := by
  cases h with
  | fixed h => exact .inl (List.mem_of_getElem? h)
  | parameter he h =>
    cases he with
    | greatest hholds =>
      obtain ⟨k, word, more, hk, -, hfind, -⟩ := hholds
      exact .inr ⟨k, List.mem_of_getElem? hk, _, List.mem_of_find?_eq_some hfind,
        List.mem_of_getElem? h⟩
  | pair _ _ h => exact .inl (List.mem_of_getElem? h)
  | last _ _ h => exact .inl (List.mem_of_getLast? h)

end Format

namespace Grammar

/-- Only the last fixed operand may bring others with it. -/
theorem core_parameters : ∀ (o : Opcode), ∀ kind ∈ (coreFormat o).fixed.dropLast,
    ∀ e ∈ kind.enumerants, e.parameters = [] := by
  decide +kernel

/-- An opcode that asks for more words than it has fixed operands takes no strings. -/
theorem core_minWordCount : ∀ (o : Opcode),
    (coreFormat o).minWordCount ≤ (coreFormat o).fixed.length + 1 ∨
      .literalString ∉ (coreFormat o).fixed ∧
        ∀ kind ∈ (coreFormat o).fixed, ∀ e ∈ kind.enumerants, .literalString ∉ e.parameters := by
  decide +kernel

end Grammar

/-- **An enumerant with parameters** stands at the last fixed position and decides. -/
theorem Format.Holds.core_decides {o : Opcode} {segments : List (List Word)} {j : Nat}
    {e : Enumerant} (h : (Grammar.coreFormat o).Holds .core segments j e) :
    j + 1 = (Grammar.coreFormat o).fixed.length ∧
      Decides .core (Grammar.coreFormat o) segments (some e) := by
  have hlast : j + 1 = (Grammar.coreFormat o).fixed.length := by
    have hlt := h.lt_length_fixed
    by_contra hne
    obtain ⟨kind, word, more, hkind, -, he, hparameters⟩ := h
    have hmem : kind ∈ (Grammar.coreFormat o).fixed.dropLast := by
      refine List.mem_of_getElem? (i := j) ?_
      rwa [List.getElem?_dropLast, if_pos (by omega)]
    exact hparameters (Grammar.core_parameters o kind hmem e (List.mem_of_find?_eq_some he))
  refine ⟨hlast, .greatest h fun j' e' hj h' => ?_⟩
  have hlt := h'.lt_length_fixed
  omega

/-! ## Operands -/

namespace Format.Fits

variable {g : Grammar} {f : Format} {imported : Option ExtInstSet} {os : List Operand}

/-- The first operands of an instruction are operands of an instruction. -/
theorem take (h : f.Fits g imported os) (n : Nat) : f.Fits g imported (os.take n) := by
  intro i o ho
  have hos : os[i]? = some o := by
    rw [List.getElem?_take] at ho
    split at ho
    · exact ho
    · contradiction
  obtain ⟨hkind, hshows⟩ := h i o hos
  refine ⟨?_, hshows⟩
  have hlt : i < ((os.take n).map words).length := by
    rw [List.length_map]
    exact (List.getElem?_eq_some_iff.mp ho).1
  rw [← kindAt?_active_eq_some_iff] at hkind ⊢
  rw [← kindAt?_active_append hlt ((os.drop n).map words), ← List.map_append,
    List.take_append_drop]
  exact hkind

/-- Operands that are no strings are one word each. -/
theorem length_flatMap_words (h : f.Fits g imported os)
    (hone : ∀ o ∈ os, o.kind ≠ .literalString) : (os.flatMap words).length = os.length := by
  have hwords : ∀ o ∈ os, o.words.length = 1 := by
    intro o ho
    obtain ⟨i, hi⟩ := List.mem_iff_getElem?.mp ho
    obtain ⟨w, hw⟩ := (h i o hi).2.eq_singleton (hone o ho)
    rw [hw, List.length_singleton]
  rw [List.length_flatMap, List.map_congr_left hwords, List.map_const', List.sum_replicate_nat,
    Nat.mul_one]

/-- **Behind an enumerant that decides** stand the first of its parameters. -/
theorem prefix_parameters (h : f.Fits g imported os) {e : Enumerant}
    (he : Decides g f (os.map words) (some e)) :
    (os.drop f.fixed.length).map (·.kind) <+: e.parameters := by
  refine List.prefix_iff_getElem?.mpr fun n hn => ?_
  rw [List.getElem_map, List.getElem_drop]
  exact (kindAt_parameter_iff he).mp (h _ _ (List.getElem?_eq_getElem _)).1

/-- **Operands in pairs** take turns behind the ids that lead them. -/
theorem kind_eq_of_pairs (h : f.Fits .core imported os) (hpairs : f.Alternates)
    (hplain : ∀ kind ∈ f.fixed, kind.isEnumerated = false) {lead : Nat} {a b : OperandKind}
    (hfixed : f.fixed = List.replicate lead OperandKind.id ++ [a, b]) {n : Nat} {o : Operand}
    (ho : os[n]? = some o) :
    o.kind = if n < lead then .id else if (n - lead) % 2 = 0 then a else b := by
  obtain ⟨hkind, -⟩ := h n o ho
  by_cases hn : n < lead
  · have hid : f.fixed[n]? = some .id := by
      rw [hfixed, List.getElem?_append_left (by simpa using hn),
        List.getElem?_replicate_of_lt hn]
    rw [if_pos hn]
    exact hkind.unique (.fixed hid)
  · obtain ⟨k, rfl⟩ := Nat.exists_eq_add_of_le (Nat.le_of_not_lt hn)
    have hlead : f.fixed.length - 2 = lead := by simp [hfixed]
    rw [← hlead] at hkind
    have hpair := hkind.pair_eq (decides_none hplain) hpairs
    rw [hlead, hfixed, List.getElem?_append_right (by simp), List.length_replicate,
      Nat.add_sub_cancel_left] at hpair
    rw [if_neg hn, Nat.add_sub_cancel_left]
    rcases Nat.mod_two_eq_zero_or_one k with hk | hk
    · rw [hk] at hpair ⊢
      exact (Option.some.inj hpair).symm
    · rw [hk] at hpair ⊢
      exact (Option.some.inj hpair).symm

end Format.Fits

/-! ## Instructions -/

namespace Instruction

variable {imported : Option ExtInstSet} {i : Instruction} {ws : List Word}

/-- The words of an instruction. -/
def encoded (i : Instruction) : List Word :=
  Word.pack i.wordCount i.opcode.code :: i.operands.flatMap words

/-- The instruction with its first `n` operands only. -/
def shortened (i : Instruction) (n : Nat) : Instruction :=
  { i with
    wordCount := ((i.operands.take n).flatMap words).length + 1
    operands := i.operands.take n }

theorem wordCount_shortened_le (h : i.taken = i.wordCount) (n : Nat) :
    (i.shortened n).wordCount ≤ i.wordCount := by
  have hsplit := congrArg (List.length ∘ List.flatMap words) (List.take_append_drop n i.operands)
  simp only [Function.comp_apply, List.flatMap_append, List.length_append] at hsplit
  rw [← h, taken, shortened]
  dsimp only
  omega

/-- **An instruction that ends early** is an instruction if its format asks for no more words. -/
theorem Written.shortened (h : Written .core imported i ws) {n : Nat}
    (hleast : (Grammar.coreFormat i.opcode).minWordCount ≤ (i.shortened n).wordCount) :
    Written .core imported (i.shortened n) (i.shortened n).encoded := by
  obtain ⟨hfits, -, ⟨first, -, -, hcount⟩, hindex⟩ := h.fits_coreFormat
  have hlt : (i.shortened n).wordCount < 0x10000 := by
    have hle := wordCount_shortened_le h.taken_eq n
    have hbound := first.wordCount_lt
    omega
  have hpack := Word.wordCount_pack hlt i.opcode.code
  have hwritten : Written .core imported
      ⟨(Grammar.coreFormat i.opcode).opcode, i.position,
        (Word.pack (i.shortened n).wordCount i.opcode.code).wordCount,
        (Grammar.coreFormat i.opcode).resultIndex, i.operands.take n⟩
      (i.shortened n).encoded := by
    refine .intro i.position ?_ (by rwa [hpack]) hpack (hfits.take n)
    rw [Word.opcodeNumber_pack, Grammar.core_opcode_code]
  rwa [hpack, ← hindex] at hwritten

/-- The operands of an instruction reach as far as its format asks for if none of them is a string.
-/
theorem Written.minWordCount_le (h : Written .core imported i ws)
    (hone : ∀ o ∈ i.operands, o.kind ≠ .literalString) :
    (Grammar.coreFormat i.opcode).minWordCount ≤ i.operands.length + 1 := by
  obtain ⟨hfits, hleast, -, -⟩ := h.fits_coreFormat
  rwa [hfits.length_flatMap_words hone] at hleast

/-- **An enumerant with parameters** is followed by the first of them. -/
theorem Written.prefix_parameters (h : Written .core imported i ws) {j : Nat} {e : Enumerant}
    (hholds : (Grammar.coreFormat i.opcode).Holds .core (i.operands.map words) j e) :
    (Grammar.coreFormat i.opcode).fixed.length ≤ i.operands.length ∧
      (Grammar.coreFormat i.opcode).minWordCount ≤ i.operands.length + 1 ∧
      (i.operands.drop (Grammar.coreFormat i.opcode).fixed.length).map (·.kind) <+:
        e.parameters := by
  obtain ⟨hfits, -⟩ := h.fits_coreFormat
  obtain ⟨hlast, hdecides⟩ := hholds.core_decides
  have hlen : (Grammar.coreFormat i.opcode).fixed.length ≤ i.operands.length := by
    have hlt := hholds.lt_length
    rw [List.length_map] at hlt
    omega
  refine ⟨hlen, ?_, hfits.prefix_parameters hdecides⟩
  rcases Grammar.core_minWordCount i.opcode with hleast | ⟨hfixed, hparameters⟩
  · omega
  · refine h.minWordCount_le fun o ho hstring => ?_
    obtain ⟨n, hn⟩ := List.mem_iff_getElem?.mp ho
    obtain ⟨hkind, -⟩ := hfits n o hn
    rw [hstring] at hkind
    rcases hkind.mem with hmem | ⟨kind, hk, e, he, hmem⟩
    · exact hfixed hmem
    · exact hparameters kind hk e he hmem

/-- **Pairs** stand behind the ids that lead them. -/
theorem Written.pairs (h : Written .core imported i ws) (lead : Nat) (a b : OperandKind)
    (hopcode : i.opcode = .opSwitch ∨ i.opcode = .opGroupMemberDecorate)
    (hfixed : (Grammar.coreFormat i.opcode).fixed = List.replicate lead OperandKind.id ++ [a, b])
    (hplain : ∀ kind ∈ [.id, a, b], kind.isEnumerated = false ∧ kind ≠ .literalString) :
    (Grammar.coreFormat i.opcode).minWordCount ≤ i.operands.length + 1 ∧
      ∀ (n : Nat) (o : Operand), i.operands[n]? = some o →
        o.kind = if n < lead then .id else if (n - lead) % 2 = 0 then a else b := by
  obtain ⟨hfits, -⟩ := h.fits_coreFormat
  have hpairs : (Grammar.coreFormat i.opcode).Alternates := by
    refine ⟨hopcode, ?_⟩
    rw [hfixed, List.length_append]
    exact Nat.le_add_left 2 _
  have hkinds : ∀ (n : Nat) (o : Operand), i.operands[n]? = some o →
      o.kind = if n < lead then .id else if (n - lead) % 2 = 0 then a else b := by
    intro n o ho
    refine hfits.kind_eq_of_pairs hpairs (fun kind hkind => (hplain kind ?_).1) hfixed ho
    rw [hfixed, List.mem_append] at hkind
    rcases hkind with hkind | hkind
    · rw [List.eq_of_mem_replicate hkind]
      exact List.mem_cons_self
    · exact List.mem_cons_of_mem _ hkind
  refine ⟨h.minWordCount_le fun o ho => (hplain o.kind ?_).2, hkinds⟩
  obtain ⟨n, hn⟩ := List.mem_iff_getElem?.mp ho
  rw [hkinds n o hn]
  split
  · simp
  · split <;> simp

end Instruction

open Instruction

/-! ## Modules -/

/-- **Groups of operands** of the instructions of a module. Behind an enumerant with parameters, and
behind the fixed operands, stand the first of these parameters in their order and nothing else. The
operands of `OpSwitch` are a selector and a default, and then literals and labels by turns; those of
`OpGroupMemberDecorate` are a group, and then targets and members by turns. A group may end early:
only the smallest word count sets a bound, and an instruction that keeps it without its last
operands can take the place of the whole one at the end of the module. -/
theorem operand_groups {words : List Word} {m : Module}
    (hm : (Module.ofWords words).outcome = .ok m) {before after : List Item} {i : Instruction}
    (hitems : (Cursor.first m).items .core = before ++ .ok i :: after) :
    let f := Grammar.coreFormat i.opcode
    (∀ j e, f.Holds .core (i.operands.map Operand.words) j e →
      f.fixed.length ≤ i.operands.length ∧ f.minWordCount ≤ i.operands.length + 1 ∧
        (i.operands.drop f.fixed.length).map (·.kind) <+: e.parameters) ∧
    (i.opcode = .opSwitch → 2 ≤ i.operands.length ∧
      ∀ (n : Nat) (o : Operand), i.operands[n]? = some o →
        o.kind = if n < 2 then .id else if (n - 2) % 2 = 0 then .literal else .id) ∧
    (i.opcode = .opGroupMemberDecorate → 1 ≤ i.operands.length ∧
      ∀ (n : Nat) (o : Operand), i.operands[n]? = some o →
        o.kind = if n < 1 then .id else if (n - 1) % 2 = 0 then .id else .literal) ∧
    ∀ n, f.minWordCount ≤ (i.shortened n).wordCount →
      ∃ m', (Module.ofWords (words.take i.position ++
          (i.shortened n).encoded.map m.order.fix)).outcome = .ok m' ∧
        m'.header = m.header ∧ m'.order = m.order ∧
        (Cursor.first m').items .core = before ++ [Except.ok (i.shortened n)] := by
  obtain ⟨is, c, rfl, hreads, hrest⟩ := Cursor.exists_reads_of_items_eq hitems
  obtain ⟨own, hwritten, hposition, -⟩ := hreads.exists_written hm hrest
  refine ⟨fun j e => hwritten.prefix_parameters, fun hopcode => ?_, fun hopcode => ?_,
    fun n hleast => ?_⟩
  · obtain ⟨hleast, hkinds⟩ := hwritten.pairs 2 .literal .id (.inl hopcode)
      (by rw [hopcode]; rfl) (by decide)
    rw [hopcode] at hleast
    exact ⟨Nat.le_of_succ_le_succ hleast, hkinds⟩
  · obtain ⟨hleast, hkinds⟩ := hwritten.pairs 1 .id .literal (.inr hopcode)
      (by rw [hopcode]; rfl) (by decide)
    rw [hopcode] at hleast
    exact ⟨Nat.le_of_succ_le_succ hleast, hkinds⟩
  · rw [hposition]
    exact hreads.exists_concat hm (hwritten.shortened hleast) hposition

/-- The number behind `Aligned` is its parameter, and without it the instruction is still read. -/
theorem operand_groups_aligned :
    let words := [magicNumber, 0x00010000, 0, 10, 0, 0x0006003D, 1, 2, 3, 2, 4]
    let cut := [magicNumber, 0x00010000, 0, 10, 0, 0x0005003D, 1, 2, 3, 2]
    ∃ m m' i e, (Module.ofWords words).outcome = .ok m ∧ (Cursor.first m).items .core = [.ok i] ∧
      (Grammar.coreFormat i.opcode).Holds .core (i.operands.map Operand.words) 3 e ∧
      e.name = "Aligned" ∧ (i.operands.drop 4).map (·.kind) = e.parameters ∧
      (Module.ofWords cut).outcome = .ok m' ∧
      (Cursor.first m').items .core = [.ok (i.shortened 4)] := by
  intro words cut
  let m : Module := ⟨.little, .ofBound 10, words.drop 5⟩
  let i : Instruction := ⟨.opLoad, 5, 6, some 1,
    [⟨.id, 1, [], ⟨some .id, "%1"⟩⟩, ⟨.resultId, 2, [], ⟨some .resultId, "%2"⟩⟩,
      ⟨.id, 3, [], ⟨some .id, "%3"⟩⟩, ⟨.memoryAccess, 2, [], ⟨none, "Aligned"⟩⟩,
      ⟨.literal, 4, [], ⟨some .literal, "4"⟩⟩]⟩
  let aligned : Enumerant := ⟨2, "Aligned", [.literal]⟩
  have hm : (Module.ofWords words).outcome = .ok m := rfl
  have hitems : (Cursor.first m).items .core = [] ++ .ok i :: [] := by decide +kernel
  have hholds : (Grammar.coreFormat i.opcode).Holds .core (i.operands.map Operand.words) 3
      aligned := ⟨.memoryAccess, 2, [], rfl, rfl, rfl, by decide⟩
  obtain ⟨hparameters, -, -, hcut⟩ := operand_groups hm hitems
  obtain ⟨-, -, hprefix⟩ := hparameters 3 aligned hholds
  obtain ⟨m', hm', -, -, hitems'⟩ := hcut 4 (by decide)
  have hwords : words.take i.position ++ (i.shortened 4).encoded.map m.order.fix = cut := by decide
  rw [hwords] at hm'
  exact ⟨m, m', i, aligned, hm, hitems, hholds, rfl, hprefix.eq_of_length rfl, hm', hitems'⟩

/-- Instructions that end within a group: `Aligned` without its number, a literal without its label,
and a target without its member. -/
theorem operand_groups_end_early :
    let words := [magicNumber, 0x00010000, 0, 10, 0,
      0x0005003D, 1, 2, 3, 2, 0x000400FB, 1, 2, 1, 0x0003004B, 1, 2]
    ∃ m load switch decorate e, (Module.ofWords words).outcome = .ok m ∧
      (Cursor.first m).items .core = [.ok load, .ok switch, .ok decorate] ∧
      (Grammar.coreFormat load.opcode).Holds .core (load.operands.map Operand.words) 3 e ∧
      load.operands.length ≠
        (Grammar.coreFormat load.opcode).fixed.length + e.parameters.length ∧
      switch.opcode = .opSwitch ∧ switch.operands.length % 2 ≠ 0 ∧
      decorate.opcode = .opGroupMemberDecorate ∧ decorate.operands.length % 2 ≠ 1 := by
  intro words
  let load : Instruction := ⟨.opLoad, 5, 5, some 1,
    [⟨.id, 1, [], ⟨some .id, "%1"⟩⟩, ⟨.resultId, 2, [], ⟨some .resultId, "%2"⟩⟩,
      ⟨.id, 3, [], ⟨some .id, "%3"⟩⟩, ⟨.memoryAccess, 2, [], ⟨none, "Aligned"⟩⟩]⟩
  let switch : Instruction := ⟨.opSwitch, 10, 4, none,
    [⟨.id, 1, [], ⟨some .id, "%1"⟩⟩, ⟨.id, 2, [], ⟨some .id, "%2"⟩⟩,
      ⟨.literal, 1, [], ⟨some .literal, "1"⟩⟩]⟩
  let decorate : Instruction := ⟨.opGroupMemberDecorate, 14, 3, none,
    [⟨.id, 1, [], ⟨some .id, "%1"⟩⟩, ⟨.id, 2, [], ⟨some .id, "%2"⟩⟩]⟩
  refine ⟨⟨.little, .ofBound 10, words.drop 5⟩, load, switch, decorate, ⟨2, "Aligned", [.literal]⟩,
    rfl, by decide +kernel, ⟨.memoryAccess, 2, [], rfl, rfl, rfl, by decide⟩, by decide, rfl,
    by decide, rfl, by decide⟩

end Spirv

import Spirv.Proofs.Run

/-!
# Imported instruction sets

Which set the extended instructions of a module are named in.

- `Instruction.strings`: the strings of an instruction; those of an import are names of sets.
  `selected_of_import` says that the last of them is the set that is selected behind it.
- `LatestImport`: the import that stands last among some items. `LatestImport.foldl_selected` says
  that its set is the one that is selected behind them, whatever stands between.
- `Instruction.Written.number_eq`: an extended instruction of the core grammar is shown by the name
  of its number in the set that is selected before it. `Instruction.read_extInst_eq_error` says what
  is wrong with one whose number has no name.
- `extended_instructions_named`: the extended instructions of a module are named in the set of the
  latest import.
-/

namespace Spirv

open Operand

variable {g : Grammar} {imported : Option ExtInstSet}

/-! ## The set behind an instruction -/

namespace Instruction

/-- The strings of an instruction in their order. -/
def strings (i : Instruction) : List String :=
  (i.operands.filter (·.kind == .literalString)).map (·.fragment.text)

/-- Instructions that are no imports leave the selected set alone. -/
theorem selected_of_ne {i : Instruction} (h : i.opcode ≠ .opExtInstImport) :
    i.selected g imported = imported := by
  refine List.foldl_fixed' (fun o => ?_) i.operands
  rw [Operand.selected, if_neg fun himport => h himport.1]

/-- The last string of an import names the set that is selected behind it. -/
theorem selected_of_import {i : Instruction} (h : i.opcode = .opExtInstImport) {name : String}
    (hname : i.strings.getLast? = some name) : i.selected g imported = g.extInstSet name := by
  obtain ⟨opcode, position, wordCount, resultIndex, operands⟩ := i
  cases h
  -- from the last operand backwards: the first string that is met decides
  unfold selected
  unfold strings at hname
  dsimp only at hname ⊢
  induction operands using List.reverseRecOn with
  | nil => contradiction
  | append_singleton os o ih =>
    rw [List.foldl_concat, Operand.selected]
    rw [List.filter_append, List.map_append] at hname
    by_cases hkind : o.kind = .literalString
    · rw [if_pos ⟨rfl, hkind⟩]
      rw [List.filter_singleton, hkind, beq_self_eq_true, cond_true, List.map_singleton,
        List.getLast?_concat] at hname
      rw [Option.some.inj hname]
    · rw [if_neg fun hstring => hkind hstring.2]
      rw [List.filter_singleton, beq_false_of_ne hkind, cond_false, List.map_nil,
        List.append_nil] at hname
      exact ih hname

end Instruction

open Instruction

/-! ## The set behind a run -/

/-- `LatestImport items i`: of the instructions among `items` that import sets, `i` is the last. -/
def LatestImport (items : List Item) (i : Instruction) : Prop :=
  ∃ before after, items = before ++ .ok i :: after ∧ i.opcode = .opExtInstImport ∧
    ∀ j, .ok j ∈ after → j.opcode ≠ .opExtInstImport

/-- There is a last import unless there is none. -/
theorem exists_latestImport (is : List Instruction) :
    (∀ i ∈ is, i.opcode ≠ .opExtInstImport) ∨ ∃ i ∈ is, LatestImport (is.map .ok) i := by
  induction is using List.reverseRecOn with
  | nil => exact .inl fun i hi => by contradiction
  | append_singleton is i ih =>
    by_cases hi : i.opcode = .opExtInstImport
    · refine .inr ⟨i, List.mem_append_right _ (List.mem_singleton_self i), is.map .ok, [], ?_, hi,
        fun j hj => by contradiction⟩
      rw [List.map_append, List.map_singleton]
    · rcases ih with hnone | ⟨j, hj, before, after, hitems, himport, hafter⟩
      · refine .inl fun j hj => ?_
        rcases List.mem_append.mp hj with hj | hj
        · exact hnone j hj
        · rwa [List.mem_singleton.mp hj]
      · refine .inr ⟨j, List.mem_append_left _ hj, before, after ++ [.ok i], ?_, himport, ?_⟩
        · rw [List.map_append, hitems, List.append_assoc, List.cons_append, List.map_singleton]
        · intro k hk
          rcases List.mem_append.mp hk with hk | hk
          · exact hafter k hk
          · cases List.mem_singleton.mp hk
            exact hi

theorem foldl_selected_of_ne {is : List Instruction} (h : ∀ i ∈ is, i.opcode ≠ .opExtInstImport) :
    is.foldl (selected g) imported = imported := by
  induction is with
  | nil => rfl
  | cons i is ih =>
    rw [List.forall_mem_cons] at h
    rw [List.foldl_cons, selected_of_ne h.1, ih h.2]

/-- **The latest import** selects the set behind a run: what stands behind it leaves that alone. -/
theorem LatestImport.foldl_selected {is : List Instruction} {i : Instruction}
    (h : LatestImport (is.map .ok) i) {name : String} (hname : i.strings.getLast? = some name) :
    is.foldl (selected g) imported = g.extInstSet name := by
  obtain ⟨before, after, hitems, himport, hafter⟩ := h
  obtain ⟨earlier, rest, rfl, -, hrest⟩ := List.map_eq_append_iff.mp hitems
  obtain ⟨j, later, rfl, hj, rfl⟩ := List.map_eq_cons_iff.mp hrest
  cases hj
  have hlater : ∀ j ∈ later, j.opcode ≠ .opExtInstImport :=
    fun j hj => hafter j (List.mem_map_of_mem hj)
  rw [List.foldl_append, List.foldl_cons, foldl_selected_of_ne hlater,
    selected_of_import himport hname]

/-! ## Imports and extended instructions of the core grammar -/

namespace Instruction

/-- An import names at least one set, and each of its strings names one. -/
theorem Written.strings_of_import {i : Instruction} {ws : List Word}
    (h : Written .core imported i ws) (himport : i.opcode = .opExtInstImport) :
    i.strings ≠ [] ∧ ∀ name ∈ i.strings, ∃ set, ExtInstSet.ofName? name = some set := by
  obtain ⟨hfits, hleast, -, -⟩ := h.fits_coreFormat
  rw [himport] at hfits hleast
  constructor
  · have hfixed : (Grammar.coreFormat .opExtInstImport).fixed[1]? = some .literalString := rfl
    have hmin : (Grammar.coreFormat .opExtInstImport).minWordCount = 3 := rfl
    obtain ⟨o, ho, hkind, -⟩ := hfits.exists_fixed hfixed (by decide) (by omega)
    have hstring : o ∈ i.operands.filter (·.kind == .literalString) :=
      List.mem_filter.mpr ⟨List.mem_of_getElem? ho, beq_iff_eq.mpr hkind⟩
    exact List.ne_nil_of_mem (List.mem_map_of_mem hstring)
  · intro name hname
    obtain ⟨o, ho, rfl⟩ := List.mem_map.mp hname
    obtain ⟨ho, hkind⟩ := List.mem_filter.mp ho
    obtain ⟨n, hn⟩ := List.mem_iff_getElem?.mp ho
    have hshows := (hfits n o hn).2
    rw [eq_of_beq hkind] at hshows
    exact hshows.exists_extInstSet

/-- An extended instruction is shown by the name of its number in the selected set. -/
theorem Written.number_eq {i : Instruction} {ws : List Word} (h : Written .core imported i ws)
    (hopcode : i.opcode = .opExtInst) :
    ∃ set number name, imported = some set ∧ ws[4]? = some number ∧
      set.instructionName? number = some name ∧
      i.operands[3]? = some ⟨.literalNumber, number, [], ⟨some .literal, name⟩⟩ ∧
      i.arguments[2]? = i.operands[3]? := by
  obtain ⟨hfits, hleast, ⟨first, rfl, -, -⟩, hresult⟩ := h.fits_coreFormat
  rw [hopcode] at hfits hleast hresult
  have hfixed : (Grammar.coreFormat .opExtInst).fixed[3]? = some .literalNumber := rfl
  have hmin : (Grammar.coreFormat .opExtInst).minWordCount = 5 := rfl
  have hindex : (Grammar.coreFormat .opExtInst).resultIndex = some 1 := rfl
  obtain ⟨⟨kind, number, more, fragment⟩, ho, rfl, hshows, hnumber⟩ :=
    hfits.exists_fixed hfixed (by decide) (by omega)
  dsimp only [words] at hshows
  cases hshows with
  | number _ h => contradiction
  | extInst _ hset hname =>
    refine ⟨_, number, _, hset, hnumber, hname, ho, ?_⟩
    rw [arguments, hresult, hindex]
    exact List.getElem?_eraseIdx_of_ge (by decide)
  | enumerant henum => cases henum

/-- **The number of an extended instruction** is where reading it stops if it has no name. The
operands before it are ids, which are always read. -/
theorem read_extInst_eq_error {order : ByteOrder} {position : Nat} {ws : List Word}
    {first number : Word} (hfirst : ws[0]? = some first)
    (hopcode : (order.fix first).opcodeNumber = Opcode.opExtInst.code)
    (hcount : 5 ≤ (order.fix first).wordCount) (hnumber : ws[4]? = some number) {cause : Cause}
    (h : text .core .opExtInst imported .literalNumber (order.fix number) = .error cause) :
    read .core order imported position ws =
      .error ⟨position + 4, some (order.fix number), cause⟩ := by
  obtain ⟨set, result, id, rest, rfl⟩ :
      ∃ set result id rest, ws = first :: set :: result :: id :: number :: rest := by
    match ws, hfirst, hnumber with
    | _ :: set :: result :: id :: _ :: rest, rfl, rfl => exact ⟨set, result, id, rest, rfl⟩
  obtain ⟨left, hleft⟩ : ∃ left, (order.fix first).wordCount - 1 = left + 4 :=
    ⟨(order.fix first).wordCount - 5, by omega⟩
  have hleast : ¬ (order.fix first).wordCount < (Grammar.coreFormat .opExtInst).minWordCount :=
    Nat.not_lt.mpr hcount
  have hids : ∀ truncated, readAll .core order (Grammar.coreFormat .opExtInst) truncated (left + 4)
      (position + 1) (set :: result :: id :: number :: rest) { imported } =
        .error ⟨position + 4, some (order.fix number), cause⟩ := by
    intro truncated
    rw [readAll_of_text_eq_ok rfl rfl (by decide) rfl,
      readAll_of_text_eq_ok rfl rfl (by decide) rfl,
      readAll_of_text_eq_ok rfl rfl (by decide) rfl]
    exact readAll_of_text_eq_error rfl rfl (by decide) h
  dsimp only [read]
  rw [hopcode, Grammar.core_opcode_code]
  dsimp only
  rw [if_neg hleast, hleft, hids]

end Instruction

/-! ## Runs -/

/-- What a run of the core grammar has selected: the set that the last string of its latest import
names, if there is an import. -/
theorem Cursor.Reads.imported_cases {m : Module} {is : List Instruction} {c : Cursor}
    (h : Reads .core (first m) is c) :
    ((∀ i ∈ is, i.opcode ≠ .opExtInstImport) ∧ c.imported = none) ∨
      ∃ i name, LatestImport (is.map .ok) i ∧ i.strings.getLast? = some name ∧
        c.imported = ExtInstSet.ofName? name := by
  rw [h.imported_eq]
  rcases exists_latestImport is with hnone | ⟨i, hi, hlatest⟩
  · refine .inl ⟨hnone, foldl_selected_of_ne hnone⟩
  · have hmem : .ok i ∈ (first m).items .core := by
      rw [h.items_eq]
      exact List.mem_append_left _ (List.mem_map_of_mem hi)
    obtain ⟨imported, own, hwritten⟩ := exists_written_of_mem_items hmem
    obtain ⟨before, after, -, himport, -⟩ := id hlatest
    obtain ⟨hne, -⟩ := hwritten.strings_of_import himport
    exact .inr ⟨i, _, hlatest, List.getLast?_eq_some_getLast hne,
      hlatest.foldl_selected (List.getLast?_eq_some_getLast hne)⟩

/-- A run comes to an end at an extended instruction whose number has no name. -/
theorem Cursor.Reads.items_of_extInst {words : List Word} {m : Module}
    (hm : (Module.ofWords words).outcome = .ok m) {is : List Instruction} {c : Cursor}
    (h : Reads .core (first m) is c) {first number : Word}
    (hfirst : words[c.position]? = some first)
    (hopcode : (m.order.fix first).opcodeNumber = Opcode.opExtInst.code)
    (hcount : 5 ≤ (m.order.fix first).wordCount)
    (hnumber : words[c.position + 4]? = some number) {cause : Cause}
    (hcause : text .core .opExtInst c.imported .literalNumber (m.order.fix number) =
      .error cause) :
    c.items .core = [.error ⟨c.position + 4, some (m.order.fix number), cause⟩] := by
  have hlive : c.failed = false := h.failed_eq
  rw [← h.getElem?_rest hm 4] at hnumber
  rw [← Nat.add_zero c.position, ← h.getElem?_rest hm 0] at hfirst
  rw [← show c.order = m.order from h.order_eq] at hopcode hcount hcause ⊢
  have hrest : c.rest ≠ [] := by
    intro hnil
    rw [hnil] at hfirst
    contradiction
  have hstops : Stops .core c (some ⟨c.position + 4, some (c.order.fix number), cause⟩) :=
    next_of_read_eq_error hlive hrest (read_extInst_eq_error hfirst hopcode hcount hnumber hcause)
  exact hstops.items_eq

/-- **Extended instructions are named in the set of the latest import.** Of the instructions that
are read from a module, one that is an extended instruction has an import before it. The word behind
its first three operands is the number of an instruction in the set that the last string of the
latest such import names, and it is shown by that name.

An extended instruction that reaches its number, which is its fifth word, is a failure at the number
if nothing has been imported before it or the number is not in the set of the latest import. No
instruction that imports sets is read unless each of its strings is the name of one. -/
theorem extended_instructions_named {words : List Word} {m : Module}
    (hm : (Module.ofWords words).outcome = .ok m) :
    let items := (Cursor.first m).items .core
    (∀ before i after, items = before ++ .ok i :: after → i.opcode = .opExtInst →
      ∃ latest name set word shown, LatestImport before latest ∧
        latest.strings.getLast? = some name ∧ ExtInstSet.ofName? name = some set ∧
        words[i.position + 4]? = some word ∧
        set.instructionName? (m.order.fix word) = some shown ∧
        i.operands[3]? =
          some ⟨.literalNumber, m.order.fix word, [], ⟨some .literal, shown⟩⟩ ∧
        i.arguments[2]? = i.operands[3]?) ∧
    (∀ (is : List Instruction) after, items = is.map .ok ++ after →
      let place := Header.size + (is.map (·.wordCount)).sum
      ∀ first word, words[place]? = some first →
        (m.order.fix first).opcodeNumber = Opcode.opExtInst.code →
        5 ≤ (m.order.fix first).wordCount → words[place + 4]? = some word →
        let number := m.order.fix word
        ((∀ i ∈ is, i.opcode ≠ .opExtInstImport) →
          after = [.error ⟨place + 4, some number, .noExtInstSet⟩]) ∧
        ∀ latest name set, LatestImport (is.map .ok) latest →
          latest.strings.getLast? = some name → ExtInstSet.ofName? name = some set →
          set.instructionName? number = none →
          after = [.error ⟨place + 4, some number, .unknownExtInst set number⟩]) ∧
    ∀ i, .ok i ∈ items → i.opcode = .opExtInstImport →
      i.strings ≠ [] ∧ ∀ name ∈ i.strings, name = "GLSL.std.450" ∨ name = "OpenCL.std" := by
  intro items
  refine ⟨fun before i after hitems hopcode => ?_, fun is after hitems => ?_,
    fun i hi himport => ?_⟩
  · obtain ⟨is, c, rfl, hreads, hrest⟩ := Cursor.exists_reads_of_items_eq hitems
    obtain ⟨c', hnext, -⟩ := Cursor.items_eq_cons_iff.mp hrest
    obtain ⟨-, own, rest, hwords, hwritten, hposition, -⟩ := Cursor.next_eq_ok_iff.mp hnext
    obtain ⟨set, number, shown, himported, hnumber, hshown, hoperand, hargument⟩ :=
      hwritten.number_eq hopcode
    have horder : c.order = m.order := hreads.order_eq
    obtain ⟨word, hword, rfl⟩ : ∃ word, words[i.position + 4]? = some word ∧
        m.order.fix word = number := by
      have hlen := (List.getElem?_eq_some_iff.mp hnumber).1
      have hloaded : (c.rest.map c.order.fix)[4]? = some number := by
        rw [hwords, List.getElem?_append_left hlen, hnumber]
      rwa [List.getElem?_map, Option.map_eq_some_iff, hreads.getElem?_rest hm, ← hposition,
        horder] at hloaded
    rcases hreads.imported_cases with ⟨-, hnone⟩ | ⟨latest, name, hlatest, hname, hset⟩
    · rw [himported] at hnone
      contradiction
    · rw [himported] at hset
      exact ⟨latest, name, set, word, shown, hlatest, hname, hset.symm, hword, hshown, hoperand,
        hargument⟩
  · obtain ⟨c, hreads, rfl⟩ := Cursor.items_eq_append_iff.mp hitems
    have hplace : Header.size + (is.map (·.wordCount)).sum = c.position :=
      hreads.position_eq.symm
    rw [hplace]
    intro place first word hfirst hopcode hcount hword
    constructor
    · intro hnone
      refine hreads.items_of_extInst hm hfirst hopcode hcount hword ?_
      rw [hreads.imported_eq, foldl_selected_of_ne hnone]
      rfl
    · intro latest name set hlatest hname hset hunknown
      refine hreads.items_of_extInst hm hfirst hopcode hcount hword ?_
      have hselected : c.imported = some set := by
        rw [hreads.imported_eq, hlatest.foldl_selected hname]
        exact hset
      have hname : Grammar.core.extInst set (m.order.fix word) = none := hunknown
      simp only [text, hselected, hname, if_true]
  · obtain ⟨imported, own, hwritten⟩ := Cursor.exists_written_of_mem_items hi
    obtain ⟨hne, hnames⟩ := hwritten.strings_of_import himport
    refine ⟨hne, fun name hname => ?_⟩
    obtain ⟨set, hset⟩ := hnames name hname
    rw [ExtInstSet.eq_name_of_ofName? hset]
    cases set with
    | glslStd450 => exact .inl rfl
    | openClStd => exact .inr rfl

/-- A module with an import of both sets, an instruction that has nothing to do with sets, and two
extended instructions: the first is named in the set that the second string names, in which the
second has no name. -/
theorem extended_instructions_named_two_strings :
    let words := [magicNumber, 0x00010000, 0, 6, 0,
      0x0009000B, 1, 0x6E65704F, 0x732E4C43, 0x00006474, 0x4C534C47, 0x6474732E, 0x3035342E, 0,
      0x00020011, 1, 0x0006000C, 2, 3, 1, 31, 4, 0x0006000C, 2, 5, 1, 500, 4]
    ∃ m i, (Module.ofWords words).outcome = .ok m ∧
      ((Cursor.first m).items .core)[2]? = some (.ok i) ∧
      (∃ latest name set shown, LatestImport (((Cursor.first m).items .core).take 2) latest ∧
        latest.strings.getLast? = some name ∧ ExtInstSet.ofName? name = some set ∧
        set.instructionName? 31 = some shown ∧
        (i.operands[3]?).map (·.fragment.text) = some shown) ∧
      ((Cursor.first m).items .core).drop 3 =
        [.error ⟨26, some 500, .unknownExtInst .glslStd450 500⟩] ∧
      ∀ latest, .ok latest ∈ (Cursor.first m).items .core →
        latest.opcode = .opExtInstImport → latest.strings ≠ [] := by
  intro words
  let m : Module := ⟨.little, .ofBound 6, words.drop 5⟩
  let latest : Instruction := ⟨.opExtInstImport, 5, 9, some 0,
    [⟨.resultId, 1, [], ⟨some .resultId, "%1"⟩⟩,
      ⟨.literalString, 0x6E65704F, [0x732E4C43, 0x00006474], ⟨some .string, "OpenCL.std"⟩⟩,
      ⟨.literalString, 0x4C534C47, [0x6474732E, 0x3035342E, 0],
        ⟨some .string, "GLSL.std.450"⟩⟩]⟩
  let capability : Instruction :=
    ⟨.opCapability, 14, 2, none, [⟨.capability, 1, [], ⟨none, "Shader"⟩⟩]⟩
  let sqrt : Instruction := ⟨.opExtInst, 16, 6, some 1,
    [⟨.id, 2, [], ⟨some .id, "%2"⟩⟩, ⟨.resultId, 3, [], ⟨some .resultId, "%3"⟩⟩,
      ⟨.id, 1, [], ⟨some .id, "%1"⟩⟩, ⟨.literalNumber, 31, [], ⟨some .literal, "Sqrt"⟩⟩,
      ⟨.id, 4, [], ⟨some .id, "%4"⟩⟩]⟩
  have hm : (Module.ofWords words).outcome = .ok m := rfl
  have hitems : (Cursor.first m).items .core = [.ok latest, .ok capability] ++ .ok sqrt ::
      [.error ⟨26, some 500, .unknownExtInst .glslStd450 500⟩] := by decide +kernel
  have hsplit : (Cursor.first m).items .core = [latest, capability, sqrt].map .ok ++
      ((Cursor.first m).items .core).drop 3 := by
    rw [hitems]
    rfl
  have hlatest : LatestImport ([latest, capability, sqrt].map .ok) latest := by
    refine ⟨[], [.ok capability, .ok sqrt], rfl, rfl, fun i hi => ?_⟩
    simp only [List.mem_cons, List.not_mem_nil, or_false] at hi
    rcases hi with hi | hi
    · cases hi
      decide
    · cases hi
      decide
  obtain ⟨hnamed, hunnamed, himport⟩ := extended_instructions_named hm
  refine ⟨m, sqrt, hm, ?_, ?_, ?_, fun i hi h => (himport i hi h).1⟩
  · rw [hitems]
    rfl
  · obtain ⟨i, name, set, word, shown, hi, hname, hset, hword, hshown, hoperand, -⟩ :=
      hnamed _ _ _ hitems rfl
    cases hword
    rw [hitems]
    exact ⟨i, name, set, shown, hi, hname, hset, hshown, congrArg _ hoperand⟩
  · exact (hunnamed _ _ hsplit 0x0006000C 500 rfl (by decide) (by decide) rfl).2 latest
      "GLSL.std.450" .glslStd450 hlatest rfl rfl (by decide +kernel)

end Spirv

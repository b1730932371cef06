import Spirv.Proofs.Listing

/-!
# Where faults lie

The place and the word of the diagnostic that an instruction which cannot be read ends with.

- `Diagnostic.LiesIn`: a diagnostic lies in some words and has no other word than the one at its
  position. It does not say that a word is missing, as `Cause.isMissing` would have it.
- `Operand.liesIn_of_read`, `Operand.liesIn_of_readAll`, `Instruction.liesIn_of_read`,
  `Cursor.liesIn_of_next`: at each level of reading a fault lies in the words that this level may
  take, and at the highest one in the words that the instruction declares to have.
- `Module.position_le_of_ofWords`, `Module.ofWords_of_ne_magic`: where a header is at fault.
- `FaultAt`: the same, said of the words of a module; `failure_located` says it of every failure.
-/

namespace Spirv

variable {g : Grammar} {order : ByteOrder}

/-- The causes that say that no word stands where reading starts. Reading only starts where one
does. -/
def Cause.isMissing : Cause → Bool
  | .missingInstruction | .missingOperand _ => true
  | _ => false

/-! ## Faults in words -/

/-- The diagnostic lies in the words `ws`, of which the first stands at `start`. -/
structure Diagnostic.LiesIn (d : Diagnostic) (start : Nat) (ws : List Word) : Prop where
  start_le : start ≤ d.position
  lt_stop : d.position < start + ws.length
  /-- If it has a word, it is the one at its position. -/
  word_eq : ∀ word ∈ d.word, ws[d.position - start]? = some word
  present : d.cause.isMissing = false

namespace Diagnostic

variable {d : Diagnostic} {start : Nat} {ws : List Word}

/-- A fault at the first of some words. -/
theorem liesIn_first {word : Option Word} {first : Word} {rest : List Word} {cause : Cause}
    (hword : word = none ∨ word = some first) (hcause : cause.isMissing = false) :
    LiesIn ⟨start, word, cause⟩ start (first :: rest) where
  start_le := Nat.le_refl start
  lt_stop := Nat.lt_add_of_pos_right (Nat.succ_pos _)
  word_eq w hw := by
    rcases hword with rfl | rfl
    · contradiction
    · cases hw
      rw [Nat.sub_self]
      rfl
  present := hcause

theorem LiesIn.append (h : d.LiesIn start ws) (more : List Word) : d.LiesIn start (ws ++ more) where
  start_le := h.start_le
  lt_stop := by
    have := h.lt_stop
    rw [List.length_append]
    omega
  word_eq word hword := by
    have hlt := h.lt_stop
    have hle := h.start_le
    rw [List.getElem?_append_left (by omega)]
    exact h.word_eq word hword
  present := h.present

theorem LiesIn.behind {front : List Word} (h : d.LiesIn (start + front.length) ws) :
    d.LiesIn start (front ++ ws) where
  start_le := Nat.le_trans (Nat.le_add_right _ _) h.start_le
  lt_stop := by
    have := h.lt_stop
    rw [List.length_append]
    omega
  word_eq word hword := by
    have hle := h.start_le
    rw [List.getElem?_append_right (by omega), Nat.sub_sub]
    exact h.word_eq word hword
  present := h.present

end Diagnostic

open Diagnostic

/-! ## Operands -/

namespace Operand

theorem isMissing_of_select {opcode : Opcode} {imported : Option ExtInstSet} {name : String}
    {cause : Cause} (h : select g opcode imported name = .error cause) :
    cause.isMissing = false := by
  unfold select at h
  split at h
  · split at h
    · cases h
      rfl
    · contradiction
  · contradiction

theorem isMissing_of_text {opcode : Opcode} {imported : Option ExtInstSet} {kind : OperandKind}
    {word : Word} {cause : Cause} (h : text g opcode imported kind word = .error cause) :
    cause.isMissing = false := by
  unfold text at h
  split at h
  · contradiction
  · contradiction
  · contradiction
  · split at h
    · split at h
      · cases h
        rfl
      · split at h
        · cases h
          rfl
        · contradiction
    · contradiction
  · split at h
    · cases h
      rfl
    · contradiction

/-- An operand is at fault where it starts. -/
theorem liesIn_of_read {opcode : Opcode} {imported : Option ExtInstSet} {kind : OperandKind}
    {position : Nat} {word : Word} {rest : List Word} {d : Diagnostic}
    (h : read g order opcode imported kind position (word :: rest) = .error d) :
    d.LiesIn position [order.fix word] := by
  dsimp only [read] at h
  split at h
  · split at h
    · cases h
      exact liesIn_first (.inl rfl) rfl
    · split at h
      · next hselect =>
        cases h
        exact liesIn_first (.inr rfl) (isMissing_of_select hselect)
      · contradiction
  · split at h
    · next htext =>
      cases h
      exact liesIn_first (.inr rfl) (isMissing_of_text htext)
    · contradiction

/-- Operands are at fault in the words that remain of their instruction, unless these are not all
there. -/
theorem liesIn_of_readAll {f : Format} {truncated d : Diagnostic} {left position : Nat}
    {words : List Word} {p : Progress}
    (h : readAll g order f truncated left position words p = .error d) :
    d = truncated ∨ d.LiesIn position ((words.map order.fix).take left) := by
  fun_induction readAll g order f truncated left position words p with
  | case1 => contradiction
  | case2 =>
    cases h
    exact .inl rfl
  | case3 position p left word rest first =>
    cases h
    rw [List.map_cons, List.take_succ_cons]
    exact .inr (liesIn_first (.inr rfl) rfl)
  | case4 position p left word rest first index active kind hkind d' hread =>
    cases h
    rw [List.map_cons, List.take_succ_cons]
    exact .inr ((liesIn_of_read hread).append _)
  | case5 position p left word rest first index active kind hkind o imported hread more ih =>
    refine (ih h).imp_right fun hlies => ?_
    -- the words of the operand stand in front of those that are left behind it
    have hinside := hlies.start_le
    have hstop := hlies.lt_stop
    rw [List.length_take, List.length_map, List.length_drop] at hstop
    have hsplit : ((word :: rest).map order.fix).take (left + 1) =
        (word :: rest.take more).map order.fix ++
          ((rest.drop more).map order.fix).take (left - more) := by
      have hleft : left = more + (left - more) := by omega
      rw [List.map_cons, List.take_succ_cons, hleft, List.take_add, Nat.add_sub_cancel_left,
        List.map_cons, List.map_take, List.map_drop, List.cons_append]
    have hfront : ((word :: rest.take more).map order.fix).length = 1 + more := by
      rw [List.length_map, List.length_cons, List.length_take]
      omega
    rw [hsplit]
    refine LiesIn.behind ?_
    rw [hfront, ← Nat.add_assoc]
    exact hlies

end Operand

/-! ## Instructions -/

/-- An instruction is at fault in the words that it declares to take, of which the first is always
there. -/
theorem Instruction.liesIn_of_read {imported : Option ExtInstSet} {position : Nat} {word : Word}
    {rest : List Word} {d : Diagnostic}
    (h : read g order imported position (word :: rest) = .error d) :
    d.LiesIn position
      (order.fix word :: (rest.map order.fix).take ((order.fix word).wordCount - 1)) := by
  dsimp only [read] at h
  split at h
  · cases h
    exact liesIn_first (.inr rfl) rfl
  · split at h
    · cases h
      exact liesIn_first (.inr rfl) rfl
    · split at h
      · next hread =>
        cases h
        rcases Operand.liesIn_of_readAll hread with rfl | hlies
        · exact liesIn_first (.inr rfl) rfl
        · have hbehind : d.LiesIn position ([order.fix word] ++
              (rest.map order.fix).take ((order.fix word).wordCount - 1)) := LiesIn.behind hlies
          exact hbehind
      · contradiction

/-- **A failed read** is at fault in the words that the instruction at the cursor declares. -/
theorem Cursor.liesIn_of_next {c c' : Cursor} {d : Diagnostic}
    (h : c.next g = some (.error d, c')) :
    ∃ first rest, c.rest.map c.order.fix = first :: rest ∧
      d.LiesIn c.position (first :: rest.take (first.wordCount - 1)) := by
  obtain ⟨hlive, hne, -⟩ := next_eq_error h
  obtain ⟨word, rest, hrest⟩ := List.exists_cons_of_ne_nil hne
  rw [hrest, List.map_cons]
  refine ⟨_, _, rfl, ?_⟩
  rw [next, hlive, hrest, List.isEmpty_cons, Bool.or_self, if_neg Bool.false_ne_true] at h
  dsimp only at h
  split at h
  · next hread =>
    cases h
    exact Instruction.liesIn_of_read hread
  · split at h
    · cases h
    · cases h
      exact liesIn_first (.inl rfl) rfl

/-! ## Modules -/

theorem ByteOrder.position_of_detect {words : List Word} {d : Diagnostic}
    (h : (detect words).outcome = .error d) : d.position = 0 := by
  unfold detect at h
  split at h
  · cases h
    rfl
  · split at h
    · contradiction
    · split at h
      · contradiction
      · cases h
        rfl

/-- **A header at fault.** The position is inside the words or at their end. -/
theorem Module.position_le_of_ofWords {words : List Word} {d : Diagnostic}
    (h : (ofWords words).outcome = .error d) : d.position ≤ words.length := by
  unfold ofWords at h
  dsimp only at h
  split at h
  · next hdetect =>
    cases h
    rw [ByteOrder.position_of_detect hdetect]
    exact Nat.zero_le _
  · split at h
    · next hread =>
      cases h
      unfold Header.read at hread
      split at hread
      · contradiction
      · cases hread
        exact Nat.le_refl _
    · contradiction

/-- A first word that is the magic number in neither order is blamed as it was loaded. -/
theorem Module.ofWords_of_ne_magic {first : Word} {rest : List Word} (hlittle : first ≠ magicNumber)
    (hbig : first ≠ magicNumber.swap) :
    (ofWords (first :: rest)).outcome = .error ⟨0, some first, .invalidMagic first⟩ := by
  have hdetect : ByteOrder.detect (first :: rest) =
      ⟨.error ⟨0, some first, .invalidMagic first⟩, #[]⟩ := by
    rw [ByteOrder.detect, if_neg hlittle, if_neg hbig]
  simp only [ofWords, hdetect]

/-- `FaultAt order words start d`: of the words of a module in the given order, `d` blames those of
the instruction that starts at `start`. -/
structure FaultAt (order : ByteOrder) (words : List Word) (start : Nat) (d : Diagnostic) :
    Prop where
  start_le : start ≤ d.position
  inside : d.position < words.length
  /-- It lies in the words that the first of them declares, if it is not at that word itself. -/
  declared : ∃ first, words[start]? = some first ∧
    d.position < start + max (order.fix first).wordCount 1
  /-- If it has a word, it is the one at its position, as its writer meant it. -/
  word_eq : ∀ word ∈ d.word, words[d.position]?.map order.fix = some word
  present : d.cause.isMissing = false

/-- A failed read blames the words of the instruction at the cursor. -/
theorem Cursor.faultAt_of_next {c c' : Cursor} {d : Diagnostic} {words : List Word}
    (hrest : c.rest = words.drop c.position) (h : c.next g = some (.error d, c')) :
    FaultAt c.order words c.position d := by
  obtain ⟨first, rest, hwords, hlies⟩ := liesIn_of_next h
  have hstop := hlies.lt_stop
  rw [List.length_cons, List.length_take] at hstop
  have hlen : rest.length + 1 = words.length - c.position := by
    have hlen := congrArg List.length hwords
    rw [List.length_map, hrest, List.length_drop, List.length_cons] at hlen
    exact hlen.symm
  -- a word at an offset from the cursor is one of the module
  have hget : ∀ n, (first :: rest)[n]? = words[c.position + n]?.map c.order.fix := by
    intro n
    rw [← hwords, hrest, List.getElem?_map, List.getElem?_drop]
  have hall := hlies.append (rest.drop (first.wordCount - 1))
  rw [List.cons_append, List.take_append_drop] at hall
  exact {
    start_le := hlies.start_le
    inside := by omega
    declared := by
      obtain ⟨word, hword, rfl⟩ := Option.map_eq_some_iff.mp (hget 0).symm
      exact ⟨word, hword, by omega⟩
    word_eq := by
      intro word hword
      rw [← hall.word_eq word hword, hget, Nat.add_sub_cancel' hlies.start_le]
    present := hlies.present }

/-- **Every failure is located.** If an instruction cannot be read, the failure is the last item,
and it blames a word of that instruction: it lies behind the instructions before it and among the
words that are there and that the instruction declares. The word it shows is the one at its
position. No failure is that a word is missing where reading starts, because reading starts at words
only. A header that cannot be read is blamed inside the words or at their end, and a first word that
is no magic number as it was loaded. The listing fails for the same reasons. -/
theorem failure_located (g : Grammar) (p : Palette) (words : List Word) :
    (∀ m, (Module.ofWords words).outcome = .ok m → ∀ before d after,
      (Cursor.first m).items g = before ++ .error d :: after →
        ∃ is : List Instruction, before = is.map .ok ∧ after = [] ∧
          FaultAt m.order words (Header.size + (is.map (·.wordCount)).sum) d ∧
          d.cause ≠ .missingInstruction ∧ (∀ kind, d.cause ≠ .missingOperand kind) ∧
          (disassemble g p words).outcome = .error (.invalidBinary d)) ∧
    (∀ d, (Module.ofWords words).outcome = .error d →
      d.position ≤ words.length ∧
        (disassemble g p words).outcome = .error (.invalidBinary d)) ∧
    ∀ first rest, words = first :: rest → first ≠ magicNumber → first ≠ magicNumber.swap →
      (Module.ofWords words).outcome = .error ⟨0, some first, .invalidMagic first⟩ := by
  refine ⟨fun m hm before d after h => ?_, fun d h => ?_, fun first rest hwords hlittle hbig => ?_⟩
  · obtain ⟨is, c, rfl, rfl, hreads, hstops⟩ := Cursor.exists_stops_of_items_eq h
    have hfault := Cursor.faultAt_of_next (hreads.rest_eq hm) hstops
    rw [hreads.order_eq, hreads.position_eq] at hfault
    refine ⟨is, rfl, rfl, hfault, ?_, ?_, disassemble_outcome_error hm h⟩
    · intro hcause
      have hpresent := hfault.present
      rw [hcause] at hpresent
      contradiction
    · intro kind hcause
      have hpresent := hfault.present
      rw [hcause] at hpresent
      contradiction
  · exact ⟨Module.position_le_of_ofWords h, disassemble_outcome_of_error h⟩
  · rw [hwords]
    exact Module.ofWords_of_ne_magic hlittle hbig

/-- A module of the other byte order whose second instruction has an unknown memory model, and words
that start with no magic number. -/
theorem failure_located_memory_model :
    let words := [0x03022307, 0x00000100, 0, 0x05000000, 0, 0x11000200, 0x01000000,
      0x0E000300, 0, 0x63000000]
    let d : Diagnostic := ⟨9, some 99, .unknownEnumerant .memoryModel 99⟩
    (∃ m i, (Module.ofWords words).outcome = .ok m ∧
      (Cursor.first m).items .core = [.ok i] ++ .error d :: [] ∧ i.wordCount = 2 ∧
      FaultAt .big words 7 d ∧
      (disassemble .core .ansi words).outcome = .error (.invalidBinary d)) ∧
    (Module.ofWords [0x01020304, 0]).outcome =
      .error ⟨0, some 0x01020304, .invalidMagic 0x01020304⟩ := by
  intro words d
  have hm : (Module.ofWords words).outcome = .ok ⟨.big, .ofBound 5, words.drop 5⟩ := rfl
  have hitems : (Cursor.first ⟨.big, .ofBound 5, words.drop 5⟩).items .core =
      [.ok ⟨.opCapability, 5, 2, none, [⟨.capability, 1, [], ⟨none, "Shader"⟩⟩]⟩] ++
        .error d :: [] := by decide +kernel
  obtain ⟨is, his, -, hfault, -, -, hlisting⟩ :=
    (failure_located .core .ansi words).1 _ hm _ _ _ hitems
  obtain ⟨i, rfl, hi⟩ := List.map_eq_singleton_iff.mp his.symm
  cases hi
  exact ⟨⟨_, _, hm, hitems, rfl, hfault, hlisting⟩,
    (failure_located .core .ansi _).2.2 _ _ rfl (by decide) (by decide)⟩

end Spirv

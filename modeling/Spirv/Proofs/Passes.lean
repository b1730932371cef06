import Spirv.Grammar.Rows
import Spirv.Proofs.Tiling

/-!
# Passes

Reading a module takes a bounded number of steps, and no index or difference on the way is out of
range, whatever the grammar and the words are.

- `Loop`: the loop that reads the operands of an instruction, written with indices into the whole
  module. `Loop.resolve`, `Loop.pass` and `Loop.run` look up a kind, read an operand and read all of
  them. They have no result if an index or a difference is out of range, and `Loop.run` has none
  either if the loop takes more passes than it may.
- `Loop.resolve_eq`: looking up a kind stays in range. `Loop.exists_pass`: so does each pass, and it
  moves on by a word or more. `Loop.run_of`: the loop comes to an end, and what it has read is what
  `Operand.readAll` reads.
- `Instruction.readChecked_eq`: reading an instruction with that loop is `Instruction.read`.
- `Cursor.length_items_le`: there are no more items than words.
- `reading_stays_in_range`: all of this for the reads of a module.
-/

namespace Spirv

open Operand

variable {g : Grammar} {order : ByteOrder} {f : Format}

/-! ## The loop -/

/-- A difference, if it is not negative. -/
def sub? (a b : Nat) : Option Nat := if b ≤ a then some (a - b) else none

/-- The part of a list from an index on, if the list reaches so far. -/
def slice? {α : Type} (xs : List α) (start : Nat) : Option (List α) :=
  if start ≤ xs.length then some (xs.drop start) else none

theorem sub?_add (a b : Nat) : sub? (a + b) b = some a := by
  rw [sub?, if_pos (Nat.le_add_left b a), Nat.add_sub_cancel]

theorem slice?_of_le {α : Type} {xs : List α} {start : Nat} (h : start ≤ xs.length) :
    slice? xs start = some (xs.drop start) := if_pos h

/-- The variables of the loop that reads the operands of an instruction. -/
structure Loop where
  /-- The index of the next word in the module. -/
  cursor : Nat
  /-- The number of passes so far, so that operands are counted from 1. -/
  index : Nat := 0
  /-- The last enumerant with parameters among the operands at fixed positions. -/
  active : Option Enumerant := none
  /-- The extended instruction set that was imported last. -/
  imported : Option ExtInstSet
  result : Option Operand := none
  arguments : List Operand := []

namespace Loop

/-- The kind of the operand at place `index`, which counts from 1, and the enumerant that is active
behind it, once the operand is known to start with `word`. -/
def resolve (g : Grammar) (f : Format) (active : Option Enumerant) (index : Nat) (word : Word) :
    Option (Option OperandKind × Option Enumerant) :=
  if index ≤ f.fixed.length then do
    let place ← sub? index 1
    let kind ← f.fixed[place]?
    match g.enumerant kind word with
    | none => return (some kind, active)
    | some enumerant =>
      return (some kind, if enumerant.parameters.isEmpty then active else some enumerant)
  else match active with
    | some enumerant => do
      let behind ← sub? index f.fixed.length
      let past ← sub? behind 1
      return (enumerant.parameters[past]?, active)
    | none =>
      if f.opcode.readsPairs && 2 ≤ f.fixed.length then do
        let start ← sub? f.fixed.length 2
        let pair ← slice? f.fixed start
        let behind ← sub? index f.fixed.length
        let past ← sub? behind 1
        let kind ← pair[past % 2]?
        return (some kind, active)
      else return (f.fixed.getLast?, active)

/-- The variables behind an operand that stands at position `place`, which counts from 0. -/
def push (f : Format) (place : Nat) (o : Operand) (active : Option Enumerant)
    (imported : Option ExtInstSet) (l : Loop) : Loop where
  cursor := l.cursor + o.words.length
  index := l.index + 1
  active
  imported
  result := if f.resultIndex = some place then some o else l.result
  arguments := if f.resultIndex = some place then l.arguments else l.arguments ++ [o]

/-- One pass: reads the operand at the cursor. -/
def pass (g : Grammar) (order : ByteOrder) (f : Format) (truncated : Diagnostic)
    (words : List Word) (l : Loop) : Option (Except Diagnostic Loop) :=
  let index := l.index + 1
  match words[l.cursor]? with
  | none => return .error truncated
  | some word => do
    let first := order.fix word
    let (kind, active) ← resolve g f l.active index first
    match kind with
    | none => return .error ⟨l.cursor, some first, .excessOperand f.opcode index⟩
    | some kind =>
      let rest ← slice? words (min l.cursor words.length)
      match Operand.read g order f.opcode l.imported kind l.cursor rest with
      | .error d => return .error d
      | .ok (o, imported) =>
        let place ← sub? index 1
        return .ok (l.push f place o active imported)

/-- The passes until the cursor has come to `stop`, of which there may be no more than the given
number. -/
def run (g : Grammar) (order : ByteOrder) (f : Format) (truncated : Diagnostic)
    (words : List Word) (stop : Nat) : Nat → Loop → Option (Except Diagnostic Loop)
  | 0, l => if l.cursor < stop then none else some (.ok l)
  | passes + 1, l =>
    if l.cursor < stop then
      match pass g order f truncated words l with
      | none => none
      | some (.error d) => some (.error d)
      | some (.ok l') => run g order f truncated words stop passes l'
    else some (.ok l)

/-! ## One pass -/

/-- **Looking up a kind** stays in range and gives the kind at that position. -/
theorem resolve_eq (active : Option Enumerant) (index : Nat) (word : Word) :
    resolve g f active (index + 1) word =
      some (f.kindAt? (activate g f active index word) index,
        activate g f active index word) := by
  unfold resolve Format.kindAt?
  dsimp only
  by_cases hindex : index < f.fixed.length
  · rw [if_pos hindex, if_pos (Nat.succ_le_of_lt hindex), sub?_add]
    dsimp only [Option.bind_eq_bind, Option.bind_some]
    rw [activate, List.getElem?_eq_getElem hindex]
    dsimp only [Option.bind_some]
    cases g.enumerant f.fixed[index] word with
    | none => rfl
    | some enumerant => rfl
  · obtain ⟨past, rfl⟩ := Nat.exists_eq_add_of_le' (Nat.le_of_not_lt hindex)
    have hbehind : sub? (past + f.fixed.length + 1) f.fixed.length = some (past + 1) := by
      rw [Nat.add_right_comm, sub?_add]
    rw [if_neg hindex, if_neg (by omega), Format.activate_of_le (Nat.le_of_not_lt hindex),
      Nat.add_sub_cancel, hbehind]
    cases active with
    | some enumerant => rfl
    | none =>
      dsimp only [Option.bind_eq_bind, Option.bind_some]
      split
      · next hpairs =>
        rw [Bool.and_eq_true, decide_eq_true_eq] at hpairs
        obtain ⟨start, hstart⟩ := Nat.exists_eq_add_of_le' hpairs.2
        have hlt : start + past % 2 < f.fixed.length := by omega
        rw [hstart, sub?_add, Nat.add_sub_cancel]
        dsimp only [Option.bind_some]
        rw [slice?_of_le (by omega), sub?_add]
        dsimp only [Option.bind_some]
        rw [List.getElem?_drop, List.getElem?_eq_getElem hlt]
        rfl
      · rfl

/-- A pass does what reading an operand of the words from the cursor on does. -/
theorem pass_eq (truncated : Diagnostic) (words : List Word) (l : Loop) :
    pass g order f truncated words l = some (match words.drop l.cursor with
      | [] => .error truncated
      | word :: rest =>
        let first := order.fix word
        let active := activate g f l.active l.index first
        match f.kindAt? active l.index with
        | none => .error ⟨l.cursor, some first, .excessOperand f.opcode (l.index + 1)⟩
        | some kind =>
          match Operand.read g order f.opcode l.imported kind l.cursor (word :: rest) with
          | .error d => .error d
          | .ok (o, imported) => .ok (l.push f l.index o active imported)) := by
  unfold pass
  dsimp only
  rcases Nat.lt_or_ge l.cursor words.length with hlt | hge
  · rw [List.getElem?_eq_getElem hlt, List.drop_eq_getElem_cons hlt]
    dsimp only
    rw [resolve_eq]
    dsimp only [Option.bind_eq_bind, Option.bind_some]
    cases f.kindAt? (activate g f l.active l.index (order.fix words[l.cursor])) l.index with
    | none => rfl
    | some kind =>
      dsimp only
      rw [slice?_of_le (Nat.min_le_right _ _), Nat.min_eq_left (Nat.le_of_lt hlt),
        List.drop_eq_getElem_cons hlt, sub?_add]
      dsimp only [Option.bind_some]
      cases Operand.read g order f.opcode l.imported kind l.cursor
        (words[l.cursor] :: words.drop (l.cursor + 1)) with
      | error d => rfl
      | ok read => rfl
  · rw [List.getElem?_eq_none hge, List.drop_eq_nil_of_le hge]
    rfl

/-- **Each pass** stays in range, and an operand that has been read moves the cursor. -/
theorem exists_pass (truncated : Diagnostic) (words : List Word) (l : Loop) :
    ∃ outcome, pass g order f truncated words l = some outcome ∧
      ∀ l', outcome = .ok l' → l.cursor < l'.cursor ∧ l'.index = l.index + 1 := by
  refine ⟨_, pass_eq truncated words l, fun l' h => ?_⟩
  split at h
  · contradiction
  · dsimp only at h
    split at h
    · contradiction
    · split at h
      · contradiction
      · next o imported hread =>
        cases h
        refine ⟨?_, rfl⟩
        show l.cursor < l.cursor + o.words.length
        rw [length_words]
        omega

/-! ## All passes -/

/-- The variables when the operands of an instruction, which start at `start`, have been read so
far. -/
def of (f : Format) (start : Nat) (p : Progress) : Loop where
  cursor := start + (p.done.toList.flatMap words).length
  index := p.done.size
  active := p.active
  imported := p.imported
  result := f.resultIndex.bind (p.done.toList[·]?)
  arguments := match f.resultIndex with
    | none => p.done.toList
    | some index => p.done.toList.eraseIdx index

@[simp] theorem index_of (start : Nat) (p : Progress) : (of f start p).index = p.done.size := rfl

@[simp] theorem active_of (start : Nat) (p : Progress) : (of f start p).active = p.active := rfl

@[simp] theorem imported_of (start : Nat) (p : Progress) :
    (of f start p).imported = p.imported := rfl

theorem push_of (start : Nat) (p : Progress) (o : Operand) (active : Option Enumerant)
    (imported : Option ExtInstSet) :
    (of f start p).push f p.done.size o active imported =
      of f start ⟨p.done.push o, active, imported⟩ := by
  unfold push of
  dsimp only
  rw [Array.toList_push, Array.size_push, ← Array.length_toList, List.flatMap_append,
    List.length_append, List.flatMap_singleton, Nat.add_assoc]
  generalize p.done.toList = os
  cases f.resultIndex with
  | none => rfl
  | some index =>
    -- the result id has been read before, or it is this operand, or it is still to come
    simp only [Option.some.injEq, Option.bind_some]
    rcases Nat.lt_trichotomy index os.length with hlt | rfl | hgt
    · rw [if_neg (Nat.ne_of_lt hlt), if_neg (Nat.ne_of_lt hlt), List.getElem?_append_left hlt,
        List.eraseIdx_append_of_lt_length hlt]
    · rw [if_pos rfl, if_pos rfl, List.getElem?_concat_length, List.eraseIdx_of_length_le le_rfl,
        List.eraseIdx_append_of_length_le le_rfl, Nat.sub_self]
      simp
    · rw [if_neg (Nat.ne_of_gt hgt), if_neg (Nat.ne_of_gt hgt), List.getElem?_eq_none hgt.le,
        List.getElem?_eq_none, List.eraseIdx_of_length_le hgt.le, List.eraseIdx_of_length_le]
      all_goals
        rw [List.length_append, List.length_singleton]
        omega

theorem cursor_of_push (start : Nat) (p : Progress) (o : Operand) (active : Option Enumerant)
    (imported : Option ExtInstSet) :
    (of f start ⟨p.done.push o, active, imported⟩).cursor =
      (of f start p).cursor + 1 + o.more.length := by
  rw [← push_of, Nat.add_assoc, Nat.add_comm 1]
  rfl

/-- **The loop** stays in range and comes to its end within one pass for each word up to there. It
reads what `Operand.readAll` reads. -/
theorem run_of (truncated : Diagnostic) (words : List Word) {stop start passes : Nat}
    {p : Progress} (hpasses : stop - (of f start p).cursor ≤ passes) :
    run g order f truncated words stop passes (of f start p) =
      some ((readAll g order f truncated (stop - (of f start p).cursor) (of f start p).cursor
        (words.drop (of f start p).cursor) p).map (of f start)) := by
  induction passes generalizing p with
  | zero =>
    rw [Nat.le_zero.mp hpasses, run, if_neg (by omega), readAll]
    rfl
  | succ passes ih =>
    rw [run]
    split
    · next hlt =>
      obtain ⟨left, hleft⟩ : ∃ left, stop - (of f start p).cursor = left + 1 :=
        ⟨stop - (of f start p).cursor - 1, by omega⟩
      rw [pass_eq, hleft]
      rcases hwords : words.drop (of f start p).cursor with _ | ⟨word, rest⟩
      · rw [readAll]
        rfl
      · rw [readAll]
        simp only [index_of, active_of, imported_of]
        cases f.kindAt? (activate g f p.active p.done.size (order.fix word)) p.done.size with
        | none => rfl
        | some kind =>
          dsimp only
          rcases Operand.read g order f.opcode p.imported kind (of f start p).cursor
            (word :: rest) with d | ⟨o, imported⟩
          · rfl
          · -- the words behind the operand are those from the new cursor on
            have hcursor := cursor_of_push (f := f) start p o
              (activate g f p.active p.done.size (order.fix word)) imported
            have hrest : rest.drop o.more.length = words.drop
                ((of f start p).cursor + 1 + o.more.length) := by
              rw [← List.drop_drop, ← List.drop_drop, hwords, List.drop_one, List.tail_cons]
            have hstop : left - o.more.length =
                stop - ((of f start p).cursor + 1 + o.more.length) := by omega
            dsimp only
            rw [push_of, ih (by rw [hcursor]; omega), hcursor, hrest, hstop]
    · rw [Nat.sub_eq_zero_of_le (by omega), readAll]
      rfl

/-- Nothing has been read when the loop begins. -/
theorem of_start (f : Format) (start : Nat) (imported : Option ExtInstSet) :
    of f start { imported } = { cursor := start, imported } := by
  unfold of
  cases f.resultIndex with
  | none => rfl
  | some index => rfl

end Loop

/-! ## Instructions -/

namespace Instruction

/-- What reading an instruction comes to. -/
structure Reading where
  opcode : Opcode
  position : Nat
  wordCount : Nat
  result : Option Operand
  arguments : List Operand
  /-- The number of words that the operands and the word before them took. -/
  taken : Nat
  /-- The extended instruction set that is selected behind the instruction. -/
  imported : Option ExtInstSet

/-- What an instruction shows of itself once it has been read. -/
def reading (i : Instruction) (imported : Option ExtInstSet) : Reading :=
  ⟨i.opcode, i.position, i.wordCount, i.result, i.arguments, i.taken, imported⟩

/-- Reads the instruction at `position` of the words of a module in no more than the given number of
passes. There is no result if more are needed, or if an index or a difference is out of range. -/
def readChecked (g : Grammar) (order : ByteOrder) (imported : Option ExtInstSet) (position : Nat)
    (words : List Word) (passes : Nat) : Option (Except Diagnostic Reading) :=
  match words[position]? with
  | none => some (.error ⟨position, none, .missingInstruction⟩)
  | some word =>
    let first := order.fix word
    match g.opcode first.opcodeNumber with
    | none => some (.error ⟨position, some first, .unknownOpcode first.opcodeNumber⟩)
    | some f =>
      if first.wordCount < f.minWordCount then
        some (.error
          ⟨position, some first, .tooFewWords f.opcode first.wordCount f.minWordCount⟩)
      else do
        let truncated : Diagnostic := ⟨position, some first, .truncatedInstruction f.opcode⟩
        match ← Loop.run g order f truncated words (position + first.wordCount) passes
            { cursor := position + 1, imported } with
        | .error d => return .error d
        | .ok l =>
          let taken ← sub? l.cursor position
          return .ok
            ⟨f.opcode, position, first.wordCount, l.result, l.arguments, taken, l.imported⟩

/-- **Reading an instruction** stays in range and takes fewer passes than the instruction declares
words. -/
theorem readChecked_eq (imported : Option ExtInstSet) (position : Nat) (words : List Word)
    {passes : Nat}
    (hpasses : ∀ word, words[position]? = some word → (order.fix word).wordCount - 1 ≤ passes) :
    readChecked g order imported position words passes =
      some ((read g order imported position (words.drop position)).map fun (i, after) =>
        i.reading after) := by
  unfold readChecked
  rcases Nat.lt_or_ge position words.length with hlt | hge
  · have hword := List.getElem?_eq_getElem hlt
    have hcount := hpasses _ hword
    rw [hword, List.drop_eq_getElem_cons hlt]
    dsimp only [read]
    cases g.opcode (order.fix words[position]).opcodeNumber with
    | none => rfl
    | some f =>
      dsimp only
      split
      · rfl
      · have hcursor : (Loop.of f (position + 1) { imported }).cursor = position + 1 := rfl
        have hleft : position + (order.fix words[position]).wordCount - (position + 1) =
            (order.fix words[position]).wordCount - 1 := by omega
        have henough : position + (order.fix words[position]).wordCount -
            (Loop.of f (position + 1) { imported }).cursor ≤ passes := by
          rw [hcursor, hleft]
          exact hcount
        rw [← Loop.of_start f, Loop.run_of _ _ henough, hcursor, hleft]
        dsimp only [Option.bind_eq_bind, Option.bind_some]
        rcases readAll g order f _ ((order.fix words[position]).wordCount - 1) (position + 1)
          (words.drop (position + 1)) { imported } with d | p
        · rfl
        · have htaken : (Loop.of f (position + 1) p).cursor =
              (p.done.toList.flatMap Operand.words).length + 1 + position := by
            show position + 1 + _ = _
            omega
          dsimp only [Except.map]
          rw [htaken, sub?_add]
          rfl
  · rw [List.getElem?_eq_none hge, List.drop_eq_nil_of_le hge]
    rfl

end Instruction

/-! ## Modules -/

namespace Cursor

/-- Reading an instruction moves the cursor. -/
theorem position_lt_of_next {c c' : Cursor} {i : Instruction}
    (h : c.next g = some (.ok i, c')) : c.position < c'.position := by
  obtain ⟨-, own, -, -, hwritten, -, rfl⟩ := next_eq_ok_iff.mp h
  show c.position < c.position + own.length
  have hpos := List.length_pos_iff.mpr hwritten.ne_nil
  omega

/-- An instruction that declares to have no words is not read. -/
theorem next_of_wordCount_eq_zero {c : Cursor} (hlive : c.failed = false) {word : Word}
    (hword : c.rest[0]? = some word) (hzero : (c.order.fix word).wordCount = 0) :
    ∃ d, c.next g = some (.error d, c.stopped) := by
  rcases hnext : c.next g with _ | ⟨d | i, c'⟩
  · rcases next_eq_none_iff.mp hnext with hfailed | hrest
    · rw [hlive] at hfailed
      contradiction
    · rw [hrest] at hword
      contradiction
  · obtain ⟨-, -, rfl⟩ := next_eq_error hnext
    exact ⟨d, rfl⟩
  · obtain ⟨-, own, rest, hrest, hwritten, -⟩ := next_eq_ok_iff.mp hnext
    have hfirst : (own ++ rest)[0]? = some (c.order.fix word) := by
      rw [← hrest, List.getElem?_map, hword, Option.map_some]
    cases hwritten with
    | intro _ _ _ hcount =>
      cases hfirst
      omega

/-- There are no more items than words. -/
theorem length_items_le (c : Cursor) : (c.items g).length ≤ c.measure := by
  rcases hnext : c.next g with _ | ⟨item, c'⟩
  · rw [items_eq_nil_iff.mpr hnext]
    exact Nat.zero_le _
  · rw [items_of_next hnext]
    exact Nat.lt_of_le_of_lt (length_items_le c') (measure_next hnext)
termination_by c.measure
decreasing_by exact measure_next hnext

end Cursor

/-- **Reading comes to an end and stays in range**, whatever the grammar and the words are. Each
pass of the loop that reads operands moves its cursor on by a word or more. An instruction that
declares `n` words takes no more than `max n 1 - 1` passes; with so many of them, reading it with
each index and each difference checked gives what reading gives.

From the first instruction on, this is what happens at every place of the module that reading comes
to. It moves the cursor with every instruction that is read, and an instruction that declares to
have no words is a failure. There are no more items than words behind the header, and nothing is
read after so many reads. -/
theorem reading_stays_in_range (g : Grammar) (words : List Word) :
    (∀ order f truncated (l : Loop), ∃ outcome, l.pass g order f truncated words = some outcome ∧
      ∀ l', outcome = .ok l' → l.cursor < l'.cursor ∧ l'.index = l.index + 1) ∧
    (∀ order imported position,
      let declared := (words[position]?).elim 0 fun word => (order.fix word).wordCount
      Instruction.readChecked g order imported position words (max declared 1 - 1) =
        some ((Instruction.read g order imported position (words.drop position)).map
          fun (i, after) => i.reading after)) ∧
    ∀ m, (Module.ofWords words).outcome = .ok m →
      (∀ is c, Cursor.Reads g (Cursor.first m) is c →
        c.order = m.order ∧ c.rest = words.drop c.position ∧
        (∀ i c', c.next g = some (.ok i, c') → c.position < c'.position) ∧
        ∀ word, words[c.position]? = some word → (m.order.fix word).wordCount = 0 →
          ∃ d, c.next g = some (.error d, c.stopped)) ∧
      ((Cursor.first m).items g).length ≤ words.length - Header.size ∧
      ∀ n, words.length - Header.size ≤ n →
        ((Cursor.advance g)^[n] (Cursor.first m)).next g = none := by
  refine ⟨fun order f truncated l => l.exists_pass truncated words,
    fun order imported position => ?_, fun m hm => ?_⟩
  · intro declared
    refine Instruction.readChecked_eq imported position words fun word hword => ?_
    have hdeclared : declared = (order.fix word).wordCount := by
      show (words[position]?).elim 0 _ = _
      rw [hword, Option.elim_some]
    omega
  · have hcount : ((Cursor.first m).items g).length ≤ words.length - Header.size := by
      have hle := Cursor.length_items_le (g := g) (Cursor.first m)
      have hmeasure : (Cursor.first m).measure = m.code.length := rfl
      have hlen := Module.length_eq hm
      omega
    refine ⟨fun is c hreads => ⟨hreads.order_eq, hreads.rest_eq hm,
      fun i c' hnext => Cursor.position_lt_of_next hnext, fun word hword hzero => ?_⟩, hcount,
      fun n hn => ?_⟩
    · rw [← show c.order = m.order from hreads.order_eq] at hzero
      refine Cursor.next_of_wordCount_eq_zero hreads.failed_eq ?_ hzero
      rw [hreads.getElem?_rest hm]
      exact hword
    · rw [← Cursor.items_eq_nil_iff, Cursor.items_iterate_advance]
      exact List.drop_eq_nil_of_le (Nat.le_trans hcount hn)

/-- A grammar whose formats ask for no words. An instruction with two strings, of which the second
begins a pair, stands before an instruction that declares to have no words. -/
theorem reading_stays_in_range_pairs :
    let g := Grammar.ofRows {
      opcodes := [(1, ⟨.opNop, 0, []⟩), (2, ⟨.opSwitch, 0, [.id, .literalString, .id]⟩)] }
    let words := [magicNumber, 0x00010000, 0, 9, 0, 0x00060002, 1, 0x00000061, 2, 0, 3, 0x00000001]
    ∃ m i c, (Module.ofWords words).outcome = .ok m ∧
      (Cursor.first m).next g = some (.ok i, c) ∧ (Cursor.first m).position < c.position ∧
      Instruction.readChecked g m.order none 5 words 5 = some (.ok (i.reading none)) ∧
      (∃ d, c.next g = some (.error d, c.stopped)) ∧
      ((Cursor.advance g)^[7] (Cursor.first m)).next g = none := by
  intro g words
  let m : Module := ⟨.little, .ofBound 9, words.drop 5⟩
  let i : Instruction := ⟨.opSwitch, 5, 6, none,
    [⟨.id, 1, [], ⟨some .id, "%1"⟩⟩, ⟨.literalString, 0x00000061, [], ⟨some .string, "a"⟩⟩,
      ⟨.id, 2, [], ⟨some .id, "%2"⟩⟩, ⟨.literalString, 0, [], ⟨some .string, ""⟩⟩,
      ⟨.id, 3, [], ⟨some .id, "%3"⟩⟩]⟩
  let c : Cursor := { order := .little, position := 11, rest := words.drop 11 }
  have hm : (Module.ofWords words).outcome = .ok m := rfl
  have hread : Instruction.read g .little none 5 (words.drop 5) = .ok (i, none) := by
    decide +kernel
  have hnext : (Cursor.first m).next g = some (.ok i, c) := by
    have hfirst : Instruction.read g (Cursor.first m).order (Cursor.first m).imported
        (Cursor.first m).position (Cursor.first m).rest = .ok (i, none) := hread
    unfold Cursor.next
    rw [hfirst]
    rfl
  obtain ⟨-, hchecked, hmodules⟩ := reading_stays_in_range g words
  obtain ⟨hplaces, -, hend⟩ := hmodules m hm
  refine ⟨m, i, c, hm, hnext, ?_, ?_, ?_, ?_⟩
  · exact (hplaces [] _ (.refl _)).2.2.1 i c hnext
  · have h := hchecked .little none 5
    rw [hread] at h
    exact h
  · exact (hplaces [i] c (.cons hnext (.refl c))).2.2.2 1 rfl (by decide)
  · exact hend 7 (by decide)

end Spirv

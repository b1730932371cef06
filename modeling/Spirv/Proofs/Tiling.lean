import Mathlib.Logic.Function.Iterate
import Spirv.Proofs.Run

/-!
# Instructions tile their module

What holds after any number of reads from the first instruction of a module on.

- `Cursor.advance`: the place after one read. `Cursor.given`: what the first reads give;
  `given_eq_take` says that these are the first items.
- `Tiled`: the instructions that have been read stand one after another between the header and the
  cursor, and each of them is as long as its first word declares. A failure leaves the cursor where
  the last of them ends.
- `Tiled.read` and `Tiled.fail` are the two kinds of steps, `exists_tiled` is the run.
- `given_tiles`: the words of a module are tiled by the instructions that are read from it.
-/

namespace Spirv

open Instruction

variable {g : Grammar}

namespace Cursor

/-- The place after one read. A read that gives nothing leaves the cursor as it is. -/
def advance (g : Grammar) (c : Cursor) : Cursor :=
  match c.next g with
  | none => c
  | some (_, c') => c'

/-- What the first `n` reads from a cursor on give. -/
def given (g : Grammar) (c : Cursor) (n : Nat) : List Item :=
  (List.range n).filterMap fun k => (((advance g)^[k] c).next g).map Prod.fst

theorem advance_of_next {c c' : Cursor} {item : Item} (h : c.next g = some (item, c')) :
    c.advance g = c' := by
  rw [advance, h]

theorem advance_of_none {c : Cursor} (h : c.next g = none) : c.advance g = c := by
  rw [advance, h]

/-- Once there is nothing to read, there never is. -/
theorem iterate_advance_of_none {c : Cursor} (h : c.next g = none) (n : Nat) :
    (advance g)^[n] c = c :=
  Function.iterate_fixed (advance_of_none h) n

/-- One more read adds what it gives. -/
theorem given_succ (c : Cursor) (n : Nat) :
    c.given g (n + 1) =
      c.given g n ++ ((((advance g)^[n] c).next g).map Prod.fst).toList := by
  rw [given, List.range_succ, List.filterMap_append, ← given]
  rcases hnext : ((advance g)^[n] c).next g with _ | ⟨item, c'⟩
  · simp [hnext]
  · simp [hnext]

/-- The first read comes before the others. -/
theorem given_succ_of_next {c c' : Cursor} {item : Item} (h : c.next g = some (item, c'))
    (n : Nat) : c.given g (n + 1) = item :: c'.given g n := by
  induction n with
  | zero =>
    rw [given_succ, Function.iterate_zero, id, h]
    rfl
  | succ n ih =>
    rw [given_succ, ih, given_succ c', Function.iterate_succ_apply, advance_of_next h,
      List.cons_append]

/-- **Reading step by step** gives the items in their order, and nothing behind them. -/
theorem given_eq_take (c : Cursor) (n : Nat) : c.given g n = (c.items g).take n := by
  induction n generalizing c with
  | zero => rfl
  | succ n ih =>
    rcases hnext : c.next g with _ | ⟨item, c'⟩
    · have hitems : c.items g = [] := by rw [items_eq, hnext]
      rw [given_succ, ih, iterate_advance_of_none hnext, hnext, hitems]
      simp
    · rw [given_succ_of_next hnext, items_of_next hnext, ih, List.take_succ_cons]

/-- The items behind the first reads are the others. -/
theorem items_iterate_advance (c : Cursor) (n : Nat) :
    ((advance g)^[n] c).items g = (c.items g).drop n := by
  induction n generalizing c with
  | zero => rfl
  | succ n ih =>
    rw [Function.iterate_succ_apply, ih]
    rcases hnext : c.next g with _ | ⟨item, c'⟩
    · rw [advance_of_none hnext, items_eq_nil_iff.mpr hnext, List.drop_nil, List.drop_nil]
    · rw [advance_of_next hnext, items_of_next hnext, List.drop_succ_cons]

end Cursor

open Cursor

/-! ## Tiles -/

/-- The instruction is the one that the word at its position declares. -/
def Instruction.Declared (g : Grammar) (order : ByteOrder) (words : List Word)
    (i : Instruction) : Prop :=
  ∃ word f, words[i.position]? = some word ∧ i.wordCount = (order.fix word).wordCount ∧
    g.opcode (order.fix word).opcodeNumber = some f ∧ i.opcode = f.opcode

/-- `Tiled g order words is failure c`: of the words of a module in the given order, those between
the header and the cursor `c` are tiled by the instructions `is`. If reading has failed, `failure`
says why the words at the cursor are no instruction. -/
structure Tiled (g : Grammar) (order : ByteOrder) (words : List Word) (is : List Instruction)
    (failure : Option Diagnostic) (c : Cursor) : Prop where
  /-- The first instruction stands behind the header. -/
  first : ∀ i ∈ is.head?, i.position = Header.size
  /-- Each other instruction starts where the one before it ends. -/
  follows : is.IsChain fun i j => j.position = i.position + i.wordCount
  /-- The last instruction ends at the cursor. -/
  last : ∀ i ∈ is.getLast?, c.position = i.position + i.wordCount
  position : c.position = Header.size + (is.map (·.wordCount)).sum
  inside : c.position ≤ words.length
  declared : ∀ i ∈ is, i.Declared g order words
  order_eq : c.order = order
  rest_eq : c.rest = words.drop c.position
  failed_eq : c.failed = failure.isSome
  /-- A failure is that of reading at the cursor, which has not moved since. -/
  fault : ∀ d ∈ failure, ({ c with failed := false }).next g = some (.error d, c)

/-- Nothing has been read at the first instruction. -/
theorem tiled_first {words : List Word} {m : Module}
    (h : (Module.ofWords words).outcome = .ok m) :
    Tiled g m.order words [] none (Cursor.first m) := by
  obtain ⟨header, hsize, hwords, -⟩ := Module.exists_header h
  have hlen := Module.length_eq h
  exact {
    first := fun i hi => by contradiction
    follows := .nil
    last := fun i hi => by contradiction
    position := rfl
    inside := by
      show Header.size ≤ words.length
      omega
    declared := fun i hi => by contradiction
    order_eq := rfl
    rest_eq := by
      show m.code = words.drop Header.size
      rw [hwords, ← hsize, List.drop_left]
    failed_eq := rfl
    fault := fun d hd => by contradiction }

namespace Tiled

variable {order : ByteOrder} {words : List Word} {is : List Instruction} {c c' : Cursor}

/-- Where no instruction has been read, the cursor is behind the header. -/
theorem position_of_first (h : Tiled g order words is none c) {i : Instruction}
    (hi : i.position = c.position) : ∀ j ∈ (is ++ [i]).head?, j.position = Header.size := by
  intro j hj
  cases is with
  | nil =>
    cases hj
    rw [hi, h.position]
    rfl
  | cons k is => exact h.first j hj

/-- **Reading an instruction** puts one more tile behind the others. -/
theorem read (h : Tiled g order words is none c) {i : Instruction}
    (hnext : c.next g = some (.ok i, c')) : Tiled g order words (is ++ [i]) none c' := by
  obtain ⟨hlive, own, rest, hrest, hi, hposition, rfl⟩ := next_eq_ok_iff.mp hnext
  have hcount : own.length = i.wordCount := hi.length_eq
  have hroom : own.length ≤ c.rest.length := by
    have hlen := congrArg List.length hrest
    rw [List.length_map, List.length_append] at hlen
    omega
  have hleft : c.rest.length = words.length - c.position := by rw [h.rest_eq, List.length_drop]
  have hinside := h.inside
  exact {
    first := h.position_of_first hposition
    follows := by
      refine List.isChain_append.mpr ⟨h.follows, .singleton i, fun j hj k hk => ?_⟩
      cases hk
      rw [hposition]
      exact h.last j hj
    last := by
      intro j hj
      rw [List.getLast?_concat] at hj
      cases hj
      show c.position + own.length = i.position + i.wordCount
      rw [hposition, hcount]
    position := by
      show c.position + own.length = _
      rw [h.position, hcount, List.map_append, List.sum_append, Nat.add_assoc]
      rfl
    inside := by
      show c.position + own.length ≤ words.length
      omega
    declared := by
      intro j hj
      rcases List.mem_append.mp hj with hj | hj
      · exact h.declared j hj
      · obtain rfl := List.mem_singleton.mp hj
        cases hi with
        | @intro first f os position hf =>
          obtain ⟨word, loaded, hloaded, rfl, -⟩ := List.map_eq_cons_iff.mp hrest
          have hword : words[c.position]? = some word := by
            have hget : (words.drop c.position)[0]? = some word := by
              rw [← h.rest_eq, hloaded]
              rfl
            rwa [List.getElem?_drop] at hget
          obtain rfl : position = c.position := hposition
          refine ⟨word, f, hword, ?_, ?_, rfl⟩
          · rw [← h.order_eq]
          · rw [← h.order_eq]
            exact hf
    order_eq := h.order_eq
    rest_eq := by
      show c.rest.drop own.length = words.drop (c.position + own.length)
      rw [h.rest_eq, List.drop_drop]
    failed_eq := hlive
    fault := fun d hd => by contradiction }

/-- **A failure** moves nothing. -/
theorem fail (h : Tiled g order words is none c) {d : Diagnostic}
    (hnext : c.next g = some (.error d, c')) : Tiled g order words is (some d) c' := by
  obtain ⟨hlive, -, rfl⟩ := next_eq_error hnext
  refine { h with failed_eq := rfl, fault := fun d' hd' => ?_ }
  cases hd'
  have hc : { c.stopped with failed := false } = c := by
    obtain ⟨order, position, rest, imported, failed⟩ := c
    cases hlive
    rfl
  rw [hc]
  exact hnext

theorem next_eq_none {d : Diagnostic} (h : Tiled g order words is (some d) c) :
    c.next g = none :=
  next_eq_none_iff.mpr (.inl h.failed_eq)

/-- At the end without a failure the tiles cover all words behind the header. -/
theorem sum_eq (h : Tiled g order words is none c) (hnext : c.next g = none) :
    (is.map (·.wordCount)).sum = words.length - Header.size := by
  have hrest : c.rest = [] := by
    rcases next_eq_none_iff.mp hnext with hfailed | hrest
    · rw [h.failed_eq] at hfailed
      contradiction
    · exact hrest
  have hle : words.length ≤ c.position := by
    rw [h.rest_eq, List.drop_eq_nil_iff] at hrest
    exact hrest
  have hposition := h.position
  have hinside := h.inside
  omega

end Tiled

/-- **After any number of reads** from the first instruction on, what has been given are
instructions and at most one failure behind them, and the instructions are tiles. -/
theorem exists_tiled {words : List Word} {m : Module}
    (h : (Module.ofWords words).outcome = .ok m) (n : Nat) :
    ∃ is failure, (Cursor.first m).given g n = is.map .ok ++ failure.toList.map .error ∧
      Tiled g m.order words is failure ((advance g)^[n] (Cursor.first m)) := by
  induction n with
  | zero => exact ⟨[], none, rfl, tiled_first h⟩
  | succ n ih =>
    obtain ⟨is, failure, hgiven, htiled⟩ := ih
    rw [given_succ, Function.iterate_succ_apply', hgiven]
    generalize (advance g)^[n] (Cursor.first m) = c at htiled
    rcases hnext : c.next g with _ | ⟨item, c'⟩
    · refine ⟨is, failure, ?_, ?_⟩
      · rw [Option.map_none, Option.toList_none, List.append_nil]
      · rwa [advance_of_none hnext]
    · rw [advance_of_next hnext]
      -- after a failure there is nothing to read, so there has been none
      cases failure with
      | some d =>
        rw [htiled.next_eq_none] at hnext
        contradiction
      | none =>
        cases item with
        | error d =>
          refine ⟨is, some d, ?_, htiled.fail hnext⟩
          simp
        | ok i =>
          refine ⟨is ++ [i], none, ?_, htiled.read hnext⟩
          simp

/-- **Instructions tile their module.** After any number of reads the instructions that have been
read stand one after another from the header up to the cursor, each as long as the word at its
position declares. At the end they cover the module. There is at most one failure, which is the last
that is given and moves nothing, and nothing is given after it or after the end. -/
theorem given_tiles (g : Grammar) {words : List Word} {m : Module}
    (h : (Module.ofWords words).outcome = .ok m) (n : Nat) :
    let c := (advance g)^[n] (Cursor.first m)
    ∃ is failure, (Cursor.first m).given g n = is.map .ok ++ failure.toList.map .error ∧
      (Cursor.first m).given g n = ((Cursor.first m).items g).take n ∧
      Tiled g m.order words is failure c ∧
      (c.next g = none → failure = none →
        (is.map (·.wordCount)).sum = words.length - Header.size) ∧
      (failure.isSome ∨ c.next g = none → ∀ k, ((advance g)^[k] c).next g = none) := by
  intro c
  obtain ⟨is, failure, hgiven, htiled⟩ := exists_tiled h n
  refine ⟨is, failure, hgiven, given_eq_take _ n, htiled, ?_, ?_⟩
  · rintro hnext rfl
    exact htiled.sum_eq hnext
  · intro hend k
    have hnext : c.next g = none := by
      rcases hend with hfailure | hnext
      · obtain ⟨d, rfl⟩ := Option.isSome_iff_exists.mp hfailure
        exact htiled.next_eq_none
      · exact hnext
    rw [iterate_advance_of_none hnext]
    exact hnext

/-- A module with one instruction before an unknown opcode: of three reads the second fails, and the
tiles end where it did. -/
theorem given_tiles_unknown_opcode :
    let words := [magicNumber, 0x00010000, 0, 5, 0, 0x00020011, 1, 0x0001FFFF]
    ∃ m, (Module.ofWords words).outcome = .ok m ∧ ∃ is d,
      (Cursor.first m).given .core 3 = is.map .ok ++ [.error d] ∧
      Tiled .core m.order words is (some d) ((advance .core)^[3] (Cursor.first m)) ∧
      ((advance .core)^[3] (Cursor.first m)).position = 7 := by
  intro words
  have hm : (Module.ofWords words).outcome =
      .ok ⟨.little, .ofBound 5, [0x00020011, 1, 0x0001FFFF]⟩ := rfl
  obtain ⟨is, failure, hgiven, -, htiled, -⟩ := given_tiles .core hm 3
  have hfailure : failure.isSome := by
    rw [← htiled.failed_eq]
    decide +kernel
  obtain ⟨d, rfl⟩ := Option.isSome_iff_exists.mp hfailure
  exact ⟨_, hm, is, d, hgiven, htiled, by decide +kernel⟩

end Spirv

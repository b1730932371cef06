import Spirv.Proofs.Instruction

/-!
# Reading modules

- `Module.exists_header`: the words of a module are those of its header and those behind them, and
  only the former matter to its header. `Module.ofWords_take` says so of modules that are cut short.
- `Cursor.items_eq`: the items from a cursor on, one read at a time.
- `Code`: instructions that stand one after another, and the words that they are written as.
- `Cursor.items_eq_map_ok_iff`: reading gives instructions and no failure exactly when the words
  from the cursor on are those of the instructions.
-/

namespace Spirv

open Instruction

variable {g : Grammar}

/-! ## Headers -/

/-- Only the words of the header matter to opening a module, and the others are its code. -/
theorem Module.exists_header {words : List Word} {m : Module}
    (h : (Module.ofWords words).outcome = .ok m) :
    ∃ header : List Word, header.length = Header.size ∧ words = header ++ m.code ∧
      ∀ code, (Module.ofWords (header ++ code)).outcome = .ok { m with code } := by
  unfold Module.ofWords at h
  dsimp only at h
  split at h
  · contradiction
  · next order horder =>
    split at h
    · contradiction
    · next header hheader =>
      cases h
      match words, hheader with
      | magic :: version :: generator :: bound :: schema :: code, hheader =>
        refine ⟨[magic, version, generator, bound, schema], rfl, rfl, fun code => ?_⟩
        have horder' : (ByteOrder.detect ([magic, version, generator, bound, schema] ++
            code)).outcome = .ok order := horder
        have hheader' : Header.read ([magic, version, generator, bound, schema] ++ code) order =
            .ok header := hheader
        simp only [Module.ofWords, horder', hheader']
        rfl

theorem Module.length_eq {words : List Word} {m : Module}
    (h : (Module.ofWords words).outcome = .ok m) : words.length = Header.size + m.code.length := by
  obtain ⟨header, hsize, hwords, -⟩ := Module.exists_header h
  rw [hwords, List.length_append, hsize]

theorem Module.code_eq {words : List Word} {m : Module}
    (h : (Module.ofWords words).outcome = .ok m) : m.code = words.drop Header.size := by
  obtain ⟨header, hsize, hwords, -⟩ := Module.exists_header h
  rw [hwords, ← hsize, List.drop_left]

/-- Words that start with the header of a module are a module with that header. -/
theorem Module.ofWords_of_take_eq {words words' : List Word} {m : Module}
    (h : (Module.ofWords words).outcome = .ok m)
    (htake : words'.take Header.size = words.take Header.size) :
    (Module.ofWords words').outcome = .ok { m with code := words'.drop Header.size } := by
  obtain ⟨header, hsize, hwords, hcode⟩ := Module.exists_header h
  have hheader : words'.take Header.size = header := by
    rw [htake, hwords, ← hsize, List.take_left]
  have hopen := hcode (words'.drop Header.size)
  rwa [← hheader, List.take_append_drop] at hopen

/-- The first words of a module are a module with the same header if they include the header. -/
theorem Module.ofWords_take {words : List Word} {m : Module}
    (h : (Module.ofWords words).outcome = .ok m) (count : Nat) :
    (Module.ofWords (words.take (Header.size + count))).outcome =
      .ok { m with code := m.code.take count } := by
  obtain ⟨header, hsize, hwords, hcode⟩ := Module.exists_header h
  rw [hwords, ← hsize, List.take_length_add_append]
  exact hcode _

/-- Fewer words than those of a header are no module. -/
theorem Module.exists_error_of_length_lt {words : List Word} (h : words.length < Header.size) :
    ∃ d, (Module.ofWords words).outcome = .error d := by
  rcases hm : (Module.ofWords words).outcome with d | m
  · exact ⟨d, rfl⟩
  · have hlen := Module.length_eq hm
    omega

/-! ## One read at a time -/

namespace Cursor

theorem toList_runOnto (acc : Array Item) (c : Cursor) :
    (c.runOnto g acc).1.toList = acc.toList ++ c.items g := by
  rw [items, runOnto, runOnto.eq_def g #[]]
  split
  · exact (List.append_nil _).symm
  · next item c' hnext =>
    rw [toList_runOnto (acc.push item) c', toList_runOnto (#[].push item) c', Array.toList_push,
      List.append_assoc]
    rfl
termination_by c.measure
decreasing_by all_goals exact measure_next (by assumption)

/-- **The items from a cursor on.** -/
theorem items_eq (c : Cursor) :
    c.items g = match c.next g with
      | none => []
      | some (item, c') => item :: c'.items g := by
  rw [items, runOnto]
  split
  · next hnext => rw [hnext]
  · next hnext =>
    rw [hnext, toList_runOnto]
    rfl

theorem items_of_next {c c' : Cursor} {item : Item} (h : c.next g = some (item, c')) :
    c.items g = item :: c'.items g := by
  rw [items_eq, h]

/-- There is nothing to read at the end and behind a failure. -/
theorem next_eq_none_iff {c : Cursor} : c.next g = none ↔ c.failed = true ∨ c.rest = [] := by
  rw [← List.isEmpty_iff, ← Bool.or_eq_true]
  unfold next
  constructor
  · intro h
    split at h
    · assumption
    · dsimp only at h
      split at h
      · cases h
      · split at h <;> cases h
  · intro h
    rw [if_pos h]

end Cursor

/-! ## Instructions one after another -/

/-- `Code g position imported is ws`: the words `ws` are those of the instructions `is`, of which
the first stands at `position`, where the set `imported` is selected. -/
inductive Code (g : Grammar) :
    Nat → Option ExtInstSet → List Instruction → List Word → Prop where
  | nil (position : Nat) (imported : Option ExtInstSet) : Code g position imported [] []
  | cons {position : Nat} {imported : Option ExtInstSet} {i : Instruction} {own : List Word}
      {is : List Instruction} {rest : List Word} (hposition : i.position = position)
      (hi : Written g imported i own)
      (his : Code g (position + own.length) (i.selected g imported) is rest) :
      Code g position imported (i :: is) (own ++ rest)

/-- **What is read from a cursor on** without a failure: the instructions that the words there are
the words of. -/
theorem Cursor.items_eq_map_ok_iff {c : Cursor} (hlive : c.failed = false)
    {is : List Instruction} :
    c.items g = is.map .ok ↔ Code g c.position c.imported is (c.rest.map c.order.fix) := by
  induction is generalizing c with
  | nil =>
    constructor
    · intro h
      have hnone : c.next g = none := by
        rcases hnext : c.next g with _ | ⟨item, c'⟩
        · rfl
        · rw [items_of_next hnext] at h
          contradiction
      rcases next_eq_none_iff.mp hnone with hfailed | hrest
      · rw [hlive] at hfailed
        contradiction
      · rw [hrest]
        exact .nil _ _
    · intro h
      generalize hrest : c.rest.map c.order.fix = ws at h
      cases h
      rw [items_eq, next_eq_none_iff.mpr (.inr (List.map_eq_nil_iff.mp hrest))]
      rfl
  | cons i is ih =>
    -- what stands behind the words of the first instruction
    have hdrop : ∀ {own rest : List Word}, c.rest.map c.order.fix = own ++ rest →
        (c.rest.drop own.length).map c.order.fix = rest := by
      intro own rest hrest
      rw [List.map_drop, hrest, List.drop_left]
    constructor
    · intro h
      rcases hnext : c.next g with _ | ⟨item, c'⟩
      · rw [items_eq, hnext] at h
        contradiction
      · rw [items_of_next hnext, List.map_cons] at h
        obtain ⟨rfl, his⟩ := List.cons.inj h
        obtain ⟨-, own, rest, hrest, hi, hposition, rfl⟩ := next_eq_ok_iff.mp hnext
        have hcode := (ih (by exact hlive)).mp his
        rw [hdrop hrest] at hcode
        rw [hrest]
        exact .cons hposition hi hcode
    · intro h
      generalize hrest : c.rest.map c.order.fix = ws at h
      cases h with
      | @cons _ _ _ own _ rest hposition hi his =>
        have hnext := next_eq_ok_iff.mpr ⟨hlive, own, rest, hrest, hi, hposition, rfl⟩
        rw [← hdrop hrest] at his
        rw [items_of_next hnext, List.map_cons]
        exact congrArg _ ((ih (by exact hlive)).mpr his)

end Spirv

import Spirv.Module.Basic
import Spirv.Proofs.Grammar
import Spirv.Proofs.Operand

/-!
# Reading instructions

- `Instruction.Written`: an instruction and the words that it is written as.
  `read_eq_ok_iff` says that reading accepts exactly those words, whatever follows them, if it ends
  where the instruction does; `Cursor.next_eq_ok_iff` says the same of a cursor.
- `exists_written_iff`: the words of an instruction are those that can be split into operands.
- `Instruction.read_accepts_iff`: an instruction is accepted at a place of a module exactly when the
  words that it declares to take can be split into operands that are legal for the kinds at their
  positions.
-/

namespace Spirv

open Operand

namespace Instruction

variable {g : Grammar} {imported : Option ExtInstSet}

/-! ## Written instructions -/

/-- `Written g imported i ws`: the words `ws` are those of the instruction `i`, which is read while
the set `imported` is selected. They say nothing about the position. -/
inductive Written (g : Grammar) (imported : Option ExtInstSet) :
    Instruction → List Word → Prop where
  | intro {first : Word} {f : Format} {os : List Operand} (position : Nat)
      (hf : g.opcode first.opcodeNumber = some f) (hleast : f.minWordCount ≤ first.wordCount)
      (hcount : first.wordCount = (os.flatMap words).length + 1) (hos : f.Fits g imported os) :
      Written g imported ⟨f.opcode, position, first.wordCount, f.resultIndex, os⟩
        (first :: os.flatMap words)

/-- The set that is selected behind an instruction. -/
def selected (g : Grammar) (imported : Option ExtInstSet) (i : Instruction) : Option ExtInstSet :=
  i.operands.foldl (fun imported o => o.selected g i.opcode imported) imported

/-- A written instruction takes the words that it declares. -/
theorem Written.length_eq {i : Instruction} {ws : List Word} (h : Written g imported i ws) :
    ws.length = i.wordCount := by
  cases h with
  | intro _ _ _ hcount => rw [hcount, List.length_cons]

theorem Written.ne_nil {i : Instruction} {ws : List Word} (h : Written g imported i ws) :
    ws ≠ [] := by
  cases h
  exact List.cons_ne_nil _ _

theorem Written.taken_eq {i : Instruction} {ws : List Word} (h : Written g imported i ws) :
    i.taken = i.wordCount := by
  cases h with
  | intro _ _ _ hcount => exact hcount.symm

/-- The words of an instruction do not depend on where it stands. -/
theorem Written.moved {i : Instruction} {ws : List Word} (h : Written g imported i ws)
    (position : Nat) : Written g imported { i with position } ws := by
  cases h with
  | intro _ hf hleast hcount hos => exact .intro position hf hleast hcount hos

/-- The operands of an instruction fit the format of its opcode, and its words reach as far as that
format asks for. The first of them tells that opcode and how many they are. -/
theorem Written.fits_coreFormat {i : Instruction} {ws : List Word}
    (h : Written .core imported i ws) :
    (Grammar.coreFormat i.opcode).Fits .core imported i.operands ∧
      (Grammar.coreFormat i.opcode).minWordCount ≤ (i.operands.flatMap words).length + 1 ∧
      (∃ first, ws = first :: i.operands.flatMap words ∧ first.opcodeNumber = i.opcode.code ∧
        first.wordCount = i.wordCount) ∧
      i.resultIndex = (Grammar.coreFormat i.opcode).resultIndex := by
  cases h with
  | @intro first f os position hf hleast hcount hfits =>
    obtain ⟨hnumber, hformat⟩ := Grammar.eq_code_of_core_opcode hf
    dsimp only
    rw [← hformat, ← hcount]
    exact ⟨hfits, hleast, ⟨first, rfl, hnumber, rfl⟩, rfl⟩

variable {order : ByteOrder}

theorem wordCount_of_read {position : Nat} {loaded rest : List Word} {first : Word}
    {i : Instruction} {after : Option ExtInstSet} (hws : loaded.map order.fix = first :: rest)
    (h : read g order imported position loaded = .ok (i, after)) :
    i.wordCount = first.wordCount := by
  obtain ⟨word, loaded, rfl, rfl, -⟩ := List.map_eq_cons_iff.mp hws
  dsimp only [read] at h
  split at h
  · contradiction
  · split at h
    · contradiction
    · split at h
      · contradiction
      · cases h
        rfl

/-- **What is read as an instruction** that ends where it declares to end: the words of that
instruction, whatever follows them. -/
theorem read_eq_ok_iff {position : Nat} {loaded : List Word} {i : Instruction}
    {after : Option ExtInstSet} :
    (read g order imported position loaded = .ok (i, after) ∧ i.taken = i.wordCount) ↔
      ∃ own rest, loaded.map order.fix = own ++ rest ∧ Written g imported i own ∧
        i.position = position ∧ after = i.selected g imported := by
  constructor
  · rintro ⟨h, htaken⟩
    cases loaded with
    | nil => contradiction
    | cons word loaded =>
      dsimp only [read] at h
      split at h
      · contradiction
      · next f hf =>
        split at h
        · contradiction
        · next hleast =>
          split at h
          · contradiction
          · next p hp =>
            obtain ⟨os, hos, ⟨rest, hrest⟩, rfl, hleft⟩ := exists_of_readAll hp
            rw [Progress.toList_done_foldl, Progress.imported_foldl] at h
            cases h
            have hcount : (os.flatMap words).length + 1 = (order.fix word).wordCount := htaken
            refine ⟨order.fix word :: os.flatMap words, rest, ?_, ?_, rfl, rfl⟩
            · rw [List.map_cons, ← hrest, List.cons_append]
            · exact .intro position hf (Nat.le_of_not_lt hleast) hcount.symm
                (Progress.accepts_iff_fits.mp hos)
  · rintro ⟨own, rest, hws, hwritten, rfl, rfl⟩
    refine ⟨?_, hwritten.taken_eq⟩
    cases hwritten with
    | @intro first f os position hf hleast hcount hos =>
      obtain ⟨word, loaded, rfl, rfl, hrest⟩ := List.map_eq_cons_iff.mp hws
      have hleft : (os.flatMap words).length = (order.fix word).wordCount - 1 := by omega
      dsimp only [read]
      rw [hf]
      dsimp only
      rw [if_neg (Nat.not_lt.mpr hleast),
        readAll_of_accepts (Progress.accepts_iff_fits.mpr hos) hleft hrest]
      dsimp only
      rw [Progress.toList_done_foldl, Progress.imported_foldl]
      rfl

/-! ## Segments -/

/-- Operands with the given words, if the words at each position are legal there. -/
theorem exists_operands (segments : List (List Word))
    (p : Nat → List Word → OperandKind → Fragment → Prop)
    (h : ∀ i ws, segments[i]? = some ws → ws ≠ [] ∧ ∃ kind fragment, p i ws kind fragment) :
    ∃ os : List Operand, os.map words = segments ∧
      ∀ i o, os[i]? = some o → p i o.words o.kind o.fragment := by
  induction segments generalizing p with
  | nil => exact ⟨[], rfl, fun i o ho => by contradiction⟩
  | cons ws segments ih =>
    obtain ⟨hne, kind, fragment, hfirst⟩ := h 0 ws rfl
    obtain ⟨first, more, rfl⟩ := List.exists_cons_of_ne_nil hne
    obtain ⟨os, hos, hp⟩ := ih (fun i => p (i + 1)) fun i ws hws => h (i + 1) ws hws
    refine ⟨⟨kind, first, more, fragment⟩ :: os, ?_, ?_⟩
    · rw [List.map_cons, hos]
      rfl
    · intro i o ho
      cases i with
      | zero =>
        cases ho
        exact hfirst
      | succ i => exact hp i o ho

/-- Words that are split into legal operands are the words of an instruction. -/
theorem exists_written_iff {first : Word} {own : List Word} :
    (∃ i, Written g imported i (first :: own)) ↔
      ∃ f segments, g.opcode first.opcodeNumber = some f ∧ f.minWordCount ≤ first.wordCount ∧
        first.wordCount = own.length + 1 ∧ segments.flatten = own ∧
        ∀ i ws, segments[i]? = some ws →
          ∃ kind, f.KindAt g segments i kind ∧ Legal g f.opcode imported kind ws := by
  constructor
  · rintro ⟨i, h⟩
    cases h with
    | @intro _ f os position hf hleast hcount hos =>
      refine ⟨f, os.map words, hf, hleast, hcount, List.flatMap_def.symm, fun i ws hws => ?_⟩
      rw [List.getElem?_map, Option.map_eq_some_iff] at hws
      obtain ⟨o, ho, rfl⟩ := hws
      exact ⟨o.kind, (hos i o ho).1, o.fragment, (hos i o ho).2⟩
  · rintro ⟨f, segments, hf, hleast, hcount, rfl, hlegal⟩
    obtain ⟨os, rfl, hos⟩ := exists_operands segments
      (fun i ws kind fragment => f.KindAt g segments i kind ∧
        Shows g f.opcode imported kind ws fragment) fun i ws hws => by
      obtain ⟨kind, hkind, fragment, hshows⟩ := hlegal i ws hws
      exact ⟨hshows.ne_nil, kind, fragment, hkind, hshows⟩
    rw [← List.flatMap_def] at hcount ⊢
    exact ⟨_, .intro 0 hf hleast hcount hos⟩

/-- What is read takes the words that the first of them declares exactly if these are there and are
those of an instruction. -/
theorem exists_read_iff {position : Nat} {loaded rest : List Word} {first : Word}
    (hws : loaded.map order.fix = first :: rest) :
    (∃ i after, read g order imported position loaded = .ok (i, after) ∧
      i.taken = first.wordCount) ↔
      first.wordCount ≤ rest.length + 1 ∧
        ∃ i, Written g imported i (first :: rest.take (first.wordCount - 1)) := by
  constructor
  · rintro ⟨i, after, hread, htaken⟩
    have hcount := wordCount_of_read hws hread
    rw [← hcount] at htaken
    obtain ⟨own, rest', hown, hwritten, -, -⟩ := read_eq_ok_iff.mp ⟨hread, htaken⟩
    have hlen : own.length = first.wordCount := hwritten.length_eq.trans hcount
    rw [hws] at hown
    obtain ⟨first', own, rfl⟩ := List.exists_cons_of_ne_nil hwritten.ne_nil
    obtain ⟨rfl, rfl⟩ : first = first' ∧ rest = own ++ rest' := List.cons.inj hown
    rw [List.length_cons] at hlen
    refine ⟨?_, i, ?_⟩
    · rw [List.length_append]
      omega
    · rwa [← hlen, Nat.add_sub_cancel, List.take_left]
  · rintro ⟨-, i, hwritten⟩
    have hsplit : loaded.map order.fix =
        first :: rest.take (first.wordCount - 1) ++ rest.drop (first.wordCount - 1) := by
      rw [hws, List.cons_append, List.take_append_drop]
    obtain ⟨hread, htaken⟩ :=
      read_eq_ok_iff.mpr ⟨_, _, hsplit, hwritten.moved position, rfl, rfl⟩
    exact ⟨_, _, hread, by rw [htaken, wordCount_of_read hws hread]⟩

end Instruction

open Instruction

/-! ## At a cursor -/

/-- **What a cursor gives**: the instruction that its words start with, and the place behind it. -/
theorem Cursor.next_eq_ok_iff {g : Grammar} {c c' : Cursor} {i : Instruction} :
    c.next g = some (.ok i, c') ↔
      c.failed = false ∧ ∃ own rest, c.rest.map c.order.fix = own ++ rest ∧
        Written g c.imported i own ∧ i.position = c.position ∧
        c' = { c with
          position := c.position + own.length
          rest := c.rest.drop own.length
          imported := i.selected g c.imported } := by
  unfold Cursor.next
  constructor
  · intro h
    split at h
    · contradiction
    · next hlive =>
      rw [Bool.or_eq_true, not_or, Bool.not_eq_true] at hlive
      dsimp only at h
      split at h
      · cases h
      · next hread =>
        split at h
        · next htaken =>
          cases h
          obtain ⟨own, rest, hrest, hwritten, hposition, rfl⟩ :=
            read_eq_ok_iff.mp ⟨hread, htaken⟩
          refine ⟨hlive.1, own, rest, hrest, hwritten, hposition, ?_⟩
          rw [htaken, ← hwritten.length_eq]
        · cases h
  · rintro ⟨hlive, own, rest, hrest, hwritten, hposition, rfl⟩
    obtain ⟨hread, htaken⟩ := read_eq_ok_iff.mpr ⟨own, rest, hrest, hwritten, hposition, rfl⟩
    have hne : c.rest.isEmpty = false := by
      rw [List.isEmpty_eq_false_iff]
      intro hnil
      rw [hnil] at hrest
      exact List.append_ne_nil_of_left_ne_nil hwritten.ne_nil rest hrest.symm
    rw [hlive, hne, Bool.or_self, if_neg Bool.false_ne_true]
    dsimp only
    rw [hread]
    dsimp only
    rw [if_pos htaken, htaken, ← hwritten.length_eq]

/-- **The grammar of instructions.** At a place of a module, reading takes exactly the words that
the instruction there declares, so that a cursor there gives it, if and only if these words are all
there and can be split into operands that are legal for the kinds at their positions. -/
theorem Instruction.read_accepts_iff (g : Grammar) (order : ByteOrder) (words : List Word)
    (imported : Option ExtInstSet) (position : Nat) (h : position < words.length) :
    let first := order.fix words[position]
    let accepted := ∃ i after,
      read g order imported position (words.drop position) = .ok (i, after) ∧
        i.taken = first.wordCount
    (accepted ↔ ∃ f segments, g.opcode first.opcodeNumber = some f ∧ 1 ≤ first.wordCount ∧
      f.minWordCount ≤ first.wordCount ∧ position + first.wordCount ≤ words.length ∧
      segments.flatten =
        ((words.drop (position + 1)).map order.fix).take (first.wordCount - 1) ∧
      ∀ i ws, segments[i]? = some ws →
        ∃ kind, f.KindAt g segments i kind ∧ Operand.Legal g f.opcode imported kind ws) ∧
    (accepted ↔ ∃ i c,
      Cursor.next g ⟨order, position, words.drop position, imported, false⟩ =
        some (.ok i, c)) := by
  intro first accepted
  have hws : (words.drop position).map order.fix =
      first :: (words.drop (position + 1)).map order.fix := by
    rw [List.drop_eq_getElem_cons h, List.map_cons]
  constructor
  · refine (exists_read_iff hws).trans ?_
    rw [exists_written_iff, List.length_take, List.length_map, List.length_drop]
    constructor
    · rintro ⟨hle, f, segments, hf, hleast, hcount, hflat, hlegal⟩
      exact ⟨f, segments, hf, by omega, hleast, by omega, hflat, hlegal⟩
    · rintro ⟨f, segments, hf, hpos, hleast, hle, hflat, hlegal⟩
      exact ⟨by omega, f, segments, hf, hleast, by omega, hflat, hlegal⟩
  · constructor
    · rintro ⟨i, after, hread, htaken⟩
      rw [← wordCount_of_read hws hread] at htaken
      obtain ⟨own, rest, hown, hwritten, hposition, -⟩ := read_eq_ok_iff.mp ⟨hread, htaken⟩
      exact ⟨i, _, Cursor.next_eq_ok_iff.mpr ⟨rfl, own, rest, hown, hwritten, hposition, rfl⟩⟩
    · rintro ⟨i, c, hnext⟩
      obtain ⟨-, own, rest, hown, hwritten, hposition, -⟩ := Cursor.next_eq_ok_iff.mp hnext
      obtain ⟨hread, htaken⟩ := read_eq_ok_iff.mpr ⟨own, rest, hown, hwritten, hposition, rfl⟩
      exact ⟨i, _, hread, by rw [htaken, wordCount_of_read hws hread]⟩

/-- A decoration with the parameters of `LinkageAttributes`, the first of them a string, written in
the other byte order behind one word of something else. -/
theorem read_accepts_linkage_attributes :
    let words := [0, 0x47000500, 0x01000000, 0x29000000, 0x61620000, 0]
    1 < words.length ∧ ∃ i after,
      Instruction.read .core .big none 1 (words.drop 1) = .ok (i, after) ∧ i.taken = 5 := by
  intro words
  have hf : Grammar.core.opcode 71 = some (Grammar.coreFormat .opDecorate) :=
    Grammar.core_opcode_code .opDecorate
  have hlegal : ∀ i ws, [[1], [41], [0x00006261], [0]][i]? = some ws →
      ∃ kind, (Grammar.coreFormat .opDecorate).KindAt .core [[1], [41], [0x00006261], [0]] i kind ∧
        Operand.Legal .core .opDecorate none kind ws := by
    intro i ws h
    match i, h with
    | 0, rfl => exact ⟨.id, .fixed rfl, _, .id 1⟩
    | 1, rfl => exact ⟨.decoration, .fixed rfl, _, .enumerant rfl rfl⟩
    | 2, rfl =>
      exact ⟨.literalString, Format.kindAt?_active_eq_some_iff.mp rfl, _,
        .string (by decide) fun h => by contradiction⟩
    | 3, rfl =>
      exact ⟨.linkageType, Format.kindAt?_active_eq_some_iff.mp rfl, _, .enumerant rfl rfl⟩
  have hfirst : ByteOrder.big.fix words[1] = 0x00050047 := by decide +kernel
  have hrest : (words.drop 2).map ByteOrder.big.fix = [1, 41, 0x00006261, 0] := by decide +kernel
  have h := Instruction.read_accepts_iff .core .big words none 1 (by decide)
  rw [hfirst, hrest] at h
  exact ⟨by decide, h.1.mpr ⟨_, _, hf, by decide, by decide, by decide, by decide, hlegal⟩⟩

end Spirv

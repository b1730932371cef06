import Mathlib.Data.List.Induction
import Spirv.Operand

/-!
# The kinds of operands

Which kind the operand at each position of an instruction has, said without reference to the order
in which operands are read.

- `Format.Holds`: a fixed position holds an enumerant with parameters; `Format.Decides`: of several,
  the last one decides about the positions behind the fixed ones.
- `Format.KindAt`: the kind at a position. The operands are given by their words, of which only the
  first word at each fixed position matters.
- `Format.active`: the enumerant with parameters that reading the operands from left to right
  arrives at. It is the one that decides (`decides_iff`).
- `kindAt?_active_eq_some_iff`: the kind that reading asks for is the one that `KindAt` describes.
- `KindAt.congr`: it depends on what the fixed positions hold and on nothing else.
-/

namespace Spirv.Format

/-- The fixed position `j` holds the enumerant `e`, which has parameters. -/
def Holds (g : Grammar) (f : Format) (segments : List (List Word)) (j : Nat) (e : Enumerant) :
    Prop :=
  ∃ kind word more, f.fixed[j]? = some kind ∧ segments[j]? = some (word :: more) ∧
    g.enumerant kind word = some e ∧ e.parameters ≠ []

/-- The enumerant that decides about the positions behind the fixed ones is the one at the greatest
fixed position that holds any. -/
inductive Decides (g : Grammar) (f : Format) (segments : List (List Word)) :
    Option Enumerant → Prop where
  | nothing (h : ∀ j e, ¬ f.Holds g segments j e) : Decides g f segments none
  | greatest {j : Nat} {e : Enumerant} (h : f.Holds g segments j e)
      (hlast : ∀ j' e', j < j' → ¬ f.Holds g segments j' e') : Decides g f segments (some e)

/-- The operands past the fixed ones alternate between the last two fixed kinds. -/
def Alternates (f : Format) : Prop :=
  (f.opcode = .opSwitch ∨ f.opcode = .opGroupMemberDecorate) ∧ 2 ≤ f.fixed.length

/-- `KindAt g f segments i kind`: of the operands with the given words, the one at position `i`,
which counts from 0, has the given kind. -/
inductive KindAt (g : Grammar) (f : Format) (segments : List (List Word)) :
    Nat → OperandKind → Prop where
  /-- The fixed positions come first. -/
  | fixed {i : Nat} {kind : OperandKind} (h : f.fixed[i]? = some kind) :
      KindAt g f segments i kind
  /-- Behind them stand the parameters of the enumerant that decides. -/
  | parameter {n : Nat} {e : Enumerant} {kind : OperandKind} (he : Decides g f segments (some e))
      (h : e.parameters[n]? = some kind) : KindAt g f segments (f.fixed.length + n) kind
  /-- If none does, opcodes that read pairs alternate between their last two kinds, the earlier one
  first. -/
  | pair {n : Nat} {kind : OperandKind} (hnone : Decides g f segments none) (hpairs : f.Alternates)
      (h : f.fixed[f.fixed.length - 2 + n % 2]? = some kind) :
      KindAt g f segments (f.fixed.length + n) kind
  /-- All others repeat their last kind. -/
  | last {n : Nat} {kind : OperandKind} (hnone : Decides g f segments none)
      (hpairs : ¬ f.Alternates) (h : f.fixed.getLast? = some kind) :
      KindAt g f segments (f.fixed.length + n) kind

variable {g : Grammar} {f : Format}

/-! ## The enumerant that decides -/

/-- The enumerant with parameters that reading the operands with the given words arrives at. -/
def active (g : Grammar) (f : Format) (segments : List (List Word)) : Option Enumerant :=
  segments.zipIdx.foldl (fun acc s => s.1.head?.elim acc (Operand.activate g f acc s.2)) none

theorem active_concat (segments : List (List Word)) (word : Word) (more : List Word) :
    active g f (segments ++ [word :: more]) =
      Operand.activate g f (active g f segments) segments.length word := by
  rw [active, List.zipIdx_append, List.foldl_append, Nat.zero_add]
  rfl

theorem active_concat_nil (segments : List (List Word)) :
    active g f (segments ++ [[]]) = active g f segments := by
  rw [active, List.zipIdx_append, List.foldl_append]
  rfl

/-- An operand past the fixed positions changes nothing. -/
theorem activate_of_le {acc : Option Enumerant} {index : Nat} {word : Word}
    (h : f.fixed.length ≤ index) : Operand.activate g f acc index word = acc := by
  rw [Operand.activate, List.getElem?_eq_none h]

theorem active_append {segments : List (List Word)} (h : f.fixed.length ≤ segments.length)
    (more : List (List Word)) : active g f (segments ++ more) = active g f segments := by
  induction more generalizing segments with
  | nil => rw [List.append_nil]
  | cons s more ih =>
    have hlen : f.fixed.length ≤ (segments ++ [s]).length := by
      rw [List.length_append]
      omega
    rw [List.append_cons, ih hlen]
    cases s with
    | nil => exact active_concat_nil segments
    | cons word rest => rw [active_concat, activate_of_le h]

theorem Holds.lt_length {segments : List (List Word)} {j : Nat} {e : Enumerant}
    (h : f.Holds g segments j e) : j < segments.length := by
  obtain ⟨_, _, _, _, hseg, _⟩ := h
  exact (List.getElem?_eq_some_iff.mp hseg).1

/-- One more operand changes nothing for the positions before it. -/
theorem holds_concat_of_lt {segments : List (List Word)} {s : List Word} {j : Nat} {e : Enumerant}
    (h : j < segments.length) : f.Holds g (segments ++ [s]) j e ↔ f.Holds g segments j e := by
  unfold Holds
  rw [List.getElem?_append_left h]

theorem holds_concat_length {segments : List (List Word)} {s : List Word} {e : Enumerant} :
    f.Holds g (segments ++ [s]) segments.length e ↔
      ∃ kind word, f.fixed[segments.length]? = some kind ∧ s.head? = some word ∧
        g.enumerant kind word = some e ∧ e.parameters ≠ [] := by
  unfold Holds
  rw [List.getElem?_concat_length]
  constructor
  · rintro ⟨kind, word, more, hkind, hs, he⟩
    cases hs
    exact ⟨kind, word, hkind, rfl, he⟩
  · rintro ⟨kind, word, hkind, hs, he⟩
    obtain ⟨more, rfl⟩ := List.head?_eq_some_iff.mp hs
    exact ⟨kind, word, more, hkind, rfl, he⟩

/-- One more operand decides if it holds an enumerant with parameters. -/
theorem active_concat_of_holds {segments : List (List Word)} {s : List Word} {e : Enumerant}
    (h : f.Holds g (segments ++ [s]) segments.length e) :
    active g f (segments ++ [s]) = some e := by
  obtain ⟨kind, word, hkind, hs, he, hne⟩ := holds_concat_length.mp h
  obtain ⟨more, rfl⟩ := List.head?_eq_some_iff.mp hs
  rw [active_concat]
  simp only [Operand.activate, hkind, he]
  rw [if_neg (by rwa [List.isEmpty_iff])]

/-- One more operand changes nothing otherwise. -/
theorem active_concat_of_not_holds {segments : List (List Word)} {s : List Word}
    (h : ∀ e, ¬ f.Holds g (segments ++ [s]) segments.length e) :
    active g f (segments ++ [s]) = active g f segments := by
  cases s with
  | nil => exact active_concat_nil segments
  | cons word more =>
    rw [active_concat]
    unfold Operand.activate
    split
    · rfl
    · next kind hkind =>
      split
      · rfl
      · next e he =>
        have hnil : e.parameters = [] := by
          by_contra hne
          exact h e (holds_concat_length.mpr ⟨kind, word, hkind, rfl, he, hne⟩)
        rw [if_pos (List.isEmpty_iff.mpr hnil)]

/-- What reading arrives at decides. -/
theorem decides_active (segments : List (List Word)) :
    Decides g f segments (active g f segments) := by
  induction segments using List.reverseRecOn with
  | nil => exact .nothing fun j e h => absurd h.lt_length (Nat.not_lt_zero j)
  | append_singleton segments s ih =>
    by_cases hs : ∃ e, f.Holds g (segments ++ [s]) segments.length e
    · obtain ⟨e, he⟩ := hs
      rw [active_concat_of_holds he]
      refine .greatest he fun j' e' hj h => ?_
      have hlt := h.lt_length
      rw [List.length_append, List.length_singleton] at hlt
      omega
    · have hnot : ∀ e, ¬ f.Holds g (segments ++ [s]) segments.length e := fun e h => hs ⟨e, h⟩
      -- the new position holds nothing, so each position holds what it held before
      have hsame : ∀ j e, f.Holds g (segments ++ [s]) j e ↔ f.Holds g segments j e := by
        intro j e
        by_cases hj : j < segments.length
        · exact holds_concat_of_lt hj
        · refine ⟨fun h => ?_, fun h => absurd h.lt_length hj⟩
          have hlt := h.lt_length
          rw [List.length_append, List.length_singleton] at hlt
          have hjlen : j = segments.length := by omega
          exact absurd (hjlen ▸ h) (hnot e)
      rw [active_concat_of_not_holds hnot]
      generalize active g f segments = a at ih ⊢
      cases ih with
      | nothing h => exact .nothing fun j e h' => h j e ((hsame j e).mp h')
      | greatest h hlast =>
        exact .greatest ((hsame _ _).mpr h) fun j' e' hj h' => hlast j' e' hj ((hsame j' e').mp h')

theorem Holds.unique {segments : List (List Word)} {j : Nat} {e e' : Enumerant}
    (h : f.Holds g segments j e) (h' : f.Holds g segments j e') : e = e' := by
  obtain ⟨kind, word, more, hkind, hseg, he, -⟩ := h
  obtain ⟨kind', word', more', hkind', hseg', he', -⟩ := h'
  rw [hkind] at hkind'
  rw [hseg] at hseg'
  cases hkind'
  cases hseg'
  rw [he] at he'
  exact Option.some.inj he'

theorem Decides.unique {segments : List (List Word)} {a b : Option Enumerant}
    (ha : Decides g f segments a) (hb : Decides g f segments b) : a = b := by
  cases ha with
  | nothing hnone =>
    cases hb with
    | nothing => rfl
    | greatest h => exact absurd h (hnone _ _)
  | @greatest j e h hlast =>
    cases hb with
    | nothing hnone => exact absurd h (hnone _ _)
    | @greatest j' e' h' hlast' =>
      rcases Nat.lt_trichotomy j j' with hlt | rfl | hgt
      · exact absurd h' (hlast _ _ hlt)
      · rw [h.unique h']
      · exact absurd h (hlast' _ _ hgt)

/-- **The enumerant that decides** is the one that reading from left to right arrives at. -/
theorem decides_iff {segments : List (List Word)} {a : Option Enumerant} :
    Decides g f segments a ↔ active g f segments = a :=
  ⟨fun h => (decides_active segments).unique h, fun h => h ▸ decides_active segments⟩

/-! ## The kind that reading asks for -/

theorem alternates_iff : f.Alternates ↔ (f.opcode.readsPairs && 2 ≤ f.fixed.length) = true := by
  simp only [Alternates, Opcode.readsPairs, Bool.and_eq_true, Bool.or_eq_true, beq_iff_eq,
    decide_eq_true_eq]

/-- **The kind that reading asks for** is the one at that position. -/
theorem kindAt?_active_eq_some_iff {segments : List (List Word)} {i : Nat} {kind : OperandKind} :
    f.kindAt? (active g f segments) i = some kind ↔ KindAt g f segments i kind := by
  constructor
  · intro h
    unfold kindAt? at h
    dsimp only at h
    by_cases hi : i < f.fixed.length
    · rw [if_pos hi] at h
      exact .fixed h
    obtain ⟨n, rfl⟩ := Nat.exists_eq_add_of_le (Nat.le_of_not_lt hi)
    rw [if_neg hi, Nat.add_sub_cancel_left] at h
    split at h
    · next e he => exact .parameter (decides_iff.mpr he) h
    · next hnone =>
      split at h
      · next hpairs => exact .pair (decides_iff.mpr hnone) (alternates_iff.mpr hpairs) h
      · next hpairs => exact .last (decides_iff.mpr hnone) (mt alternates_iff.mp hpairs) h
  · intro h
    unfold kindAt?
    dsimp only
    cases h with
    | fixed h => rwa [if_pos (List.getElem?_eq_some_iff.mp h).1]
    | parameter he h =>
      rw [if_neg (by omega), decides_iff.mp he, Nat.add_sub_cancel_left]
      exact h
    | pair hnone hpairs h =>
      rw [if_neg (by omega), decides_iff.mp hnone, Nat.add_sub_cancel_left]
      dsimp only
      rwa [if_pos (alternates_iff.mp hpairs)]
    | last hnone hpairs h =>
      rw [if_neg (by omega), decides_iff.mp hnone]
      dsimp only
      rwa [if_neg (mt alternates_iff.mpr hpairs)]

/-- There is one kind at a position. -/
theorem KindAt.unique {segments : List (List Word)} {i : Nat} {kind kind' : OperandKind}
    (h : KindAt g f segments i kind) (h' : KindAt g f segments i kind') : kind = kind' :=
  Option.some.inj
    ((kindAt?_active_eq_some_iff.mpr h).symm.trans (kindAt?_active_eq_some_iff.mpr h'))

/-- What decides is settled by what the fixed positions hold. -/
theorem Decides.congr {g' : Grammar} {segments segments' : List (List Word)} {a : Option Enumerant}
    (hholds : ∀ j e, f.Holds g' segments' j e ↔ f.Holds g segments j e)
    (h : Decides g f segments a) : Decides g' f segments' a := by
  cases h with
  | nothing h => exact .nothing fun j e => mt (hholds j e).mp (h j e)
  | greatest h hlast =>
    exact .greatest ((hholds _ _).mpr h) fun j e hj => mt (hholds j e).mp (hlast j e hj)

/-- And so are the kinds. -/
theorem KindAt.congr {g' : Grammar} {segments segments' : List (List Word)} {i : Nat}
    {kind : OperandKind} (hholds : ∀ j e, f.Holds g' segments' j e ↔ f.Holds g segments j e)
    (h : f.KindAt g segments i kind) : f.KindAt g' segments' i kind := by
  cases h with
  | fixed h => exact .fixed h
  | parameter he h => exact .parameter (he.congr hholds) h
  | pair hnone hpairs h => exact .pair (hnone.congr hholds) hpairs h
  | last hnone hpairs h => exact .last (hnone.congr hholds) hpairs h

/-- The operand at a position is not needed to know its kind. -/
theorem kindAt?_activate {acc : Option Enumerant} {index : Nat} {word : Word} :
    f.kindAt? (Operand.activate g f acc index word) index = f.kindAt? acc index := by
  by_cases h : index < f.fixed.length
  · unfold kindAt?
    dsimp only
    rw [if_pos h, if_pos h]
  · rw [activate_of_le (Nat.le_of_not_lt h)]

/-- The kind at a position does not depend on what is read behind it. -/
theorem kindAt?_active_append {segments : List (List Word)} {i : Nat} (hi : i < segments.length)
    (more : List (List Word)) :
    f.kindAt? (active g f (segments ++ more)) i = f.kindAt? (active g f segments) i := by
  by_cases h : i < f.fixed.length
  · unfold kindAt?
    dsimp only
    rw [if_pos h, if_pos h]
  · rw [active_append (by omega)]

end Spirv.Format

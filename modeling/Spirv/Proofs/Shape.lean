import Mathlib.Data.List.Range
import Spirv.Proofs.Grammar
import Spirv.Proofs.Module

/-!
# The shape of a disassembly

Which instructions a module has, and which operands of which kinds, does not depend on the values of
its ids and literals.

- `OperandKind.isPlain`: the kinds of these operands. `Operand.withValue` puts another value in
  place of that of a plain operand and leaves all others as they are.
- `Operand.placed`, `Instruction.placed`: operands with the places of their first words.
  `Operand.withValues`, `Instruction.withValues`: the plain ones among them take the values that
  stand at their places.
- `Operand.Agrees`: what stands from some place on are given words, but for the places of plain
  operands.
- `Format.Fits.withValues`, `Instruction.Written.withValues`, `Code.withValues`: the operands of an
  instruction, an instruction, and instructions one after another can have any other values.
- `values_keep_shape`: a module with other values is read as the same instructions with these
  values.
-/

namespace Spirv

/-- The kinds of operands that are one word of any value and are shown as its number. -/
def OperandKind.isPlain : OperandKind → Bool
  | .id | .resultId | .literal => true
  | _ => false

theorem OperandKind.isPlain_of_isEnumerated {kind : OperandKind} (h : kind.isEnumerated = true) :
    kind.isPlain = false := by
  cases kind <;> first | rfl | contradiction

namespace Operand

/-! ## Plain operands -/

/-- The operand with another value, if it is plain. Ids are shown with a mark before the number. -/
def withValue (o : Operand) (value : Word) : Operand :=
  match o.kind with
  | .id | .resultId =>
    { o with first := value, fragment := { o.fragment with text := "%" ++ value.decimal } }
  | .literal => { o with first := value, fragment := { o.fragment with text := value.decimal } }
  | _ => o

variable {g : Grammar} {opcode : Opcode} {imported : Option ExtInstSet}

theorem withValue_eq_self {o : Operand} (h : o.kind.isPlain = false) (w : Word) :
    o.withValue w = o := by
  unfold withValue
  split
  case h_4 => rfl
  all_goals simp_all [OperandKind.isPlain]

theorem first_withValue {o : Operand} (h : o.kind.isPlain = true) (w : Word) :
    (o.withValue w).first = w := by
  unfold withValue
  split
  case h_4 => simp_all [OperandKind.isPlain]
  all_goals rfl

@[simp] theorem kind_withValue (o : Operand) (w : Word) : (o.withValue w).kind = o.kind := by
  unfold withValue
  split <;> rfl

@[simp] theorem more_withValue (o : Operand) (w : Word) : (o.withValue w).more = o.more := by
  unfold withValue
  split <;> rfl

theorem ne_literalString_of_isPlain {o : Operand} (h : o.kind.isPlain = true) :
    o.kind ≠ .literalString := by
  intro hkind
  rw [hkind] at h
  contradiction

/-- A plain operand is one word. -/
theorem Shows.more_eq_nil {o : Operand} (h : Shows g opcode imported o.kind o.words o.fragment)
    (hplain : o.kind.isPlain = true) : o.more = [] := by
  obtain ⟨w, hw⟩ := h.eq_singleton (ne_literalString_of_isPlain hplain)
  exact (List.cons.inj hw).2

/-- Every value is that of some plain operand. -/
theorem Shows.withValue {o : Operand} (h : Shows g opcode imported o.kind o.words o.fragment)
    (w : Word) :
    Shows g opcode imported o.kind (o.withValue w).words (o.withValue w).fragment := by
  obtain ⟨kind, first, more, fragment⟩ := o
  change Shows g opcode imported kind (first :: more) fragment at h
  unfold Operand.withValue
  split
  case h_1 hkind =>
    obtain rfl : kind = .id := hkind
    cases h with
    | id => exact .id w
    | enumerant henum => cases henum
  case h_2 hkind =>
    obtain rfl : kind = .resultId := hkind
    cases h with
    | resultId => exact .resultId w
    | enumerant henum => cases henum
  case h_3 hkind =>
    obtain rfl : kind = .literal := hkind
    cases h with
    | literal => exact .literal w
    | enumerant henum => cases henum
  case h_4 => exact h

theorem selected_withValue (o : Operand) (w : Word) :
    (o.withValue w).selected g opcode imported = o.selected g opcode imported := by
  cases hplain : o.kind.isPlain with
  | false => rw [withValue_eq_self hplain]
  | true =>
    have hkind := ne_literalString_of_isPlain hplain
    rw [selected, selected, kind_withValue, if_neg fun h => hkind h.2, if_neg fun h => hkind h.2]

/-! ## Places -/

/-- Operands with the places of their first words. The first of them stands at `position`. -/
def placed (position : Nat) : List Operand → List (Nat × Operand)
  | [] => []
  | o :: os => (position, o) :: placed (position + o.words.length) os

/-- An operand lies in the words of the operands. -/
theorem bounds_of_mem_placed {position n : Nat} {o : Operand} {os : List Operand}
    (h : (n, o) ∈ placed position os) :
    position ≤ n ∧ n + o.words.length ≤ position + (os.flatMap words).length := by
  induction os generalizing position with
  | nil => exact absurd h List.not_mem_nil
  | cons o' os ih =>
    rw [List.flatMap_cons, List.length_append]
    rcases List.mem_cons.mp h with heq | h
    · cases heq
      omega
    · have := ih h
      omega

/-- What stands from `position` on are the given words, but for the places of the plain operands
among those that are `placed`. -/
def Agrees (value : Nat → Word) (position : Nat) (ws : List Word) (placed : List (Nat × Operand)) :
    Prop :=
  ∀ n w, ws[n]? = some w →
    value (position + n) = w ∨ ∃ o, (position + n, o) ∈ placed ∧ o.kind.isPlain = true

section

variable {value : Nat → Word} {position : Nat} {ws rest : List Word}
  {earlier later : List (Nat × Operand)}

/-- The words before a place do not depend on the operands behind it. -/
theorem Agrees.left (h : Agrees value position (ws ++ rest) (earlier ++ later))
    (hlater : ∀ n o, (n, o) ∈ later → position + ws.length ≤ n) :
    Agrees value position ws earlier := by
  intro n w hw
  have hn := (List.getElem?_eq_some_iff.mp hw).1
  rw [← List.getElem?_append_left hn] at hw
  refine (h n w hw).imp id fun ⟨o, ho, hplain⟩ => ⟨o, ?_, hplain⟩
  rcases List.mem_append.mp ho with ho | ho
  · exact ho
  · have := hlater _ _ ho
    omega

/-- The words from a place on do not depend on the operands before it. -/
theorem Agrees.right (h : Agrees value position (ws ++ rest) (earlier ++ later))
    (hearlier : ∀ n o, (n, o) ∈ earlier → n < position + ws.length) :
    Agrees value (position + ws.length) rest later := by
  intro n w hw
  have hword : (ws ++ rest)[ws.length + n]? = some w := by
    rw [List.getElem?_append_right (Nat.le_add_right _ _), Nat.add_sub_cancel_left, hw]
  rw [Nat.add_assoc]
  refine (h _ w hword).imp id fun ⟨o, ho, hplain⟩ => ⟨o, ?_, hplain⟩
  rcases List.mem_append.mp ho with ho | ho
  · have := hearlier _ _ ho
    omega
  · exact ho

end

/-! ## Operands one after another -/

/-- Operands with the values that stand at the places of the plain ones. -/
def withValues (value : Nat → Word) (position : Nat) (os : List Operand) : List Operand :=
  (placed position os).map fun s => s.2.withValue (value s.1)

variable {value : Nat → Word} {position : Nat}

theorem withValues_cons (o : Operand) (os : List Operand) :
    withValues value position (o :: os) =
      o.withValue (value position) :: withValues value (position + o.words.length) os := rfl

theorem exists_getElem?_withValues (value : Nat → Word) (position : Nat) (os : List Operand)
    (i : Nat) : ∃ w, (withValues value position os)[i]? = os[i]?.map (·.withValue w) := by
  induction os generalizing position i with
  | nil => exact ⟨0, rfl⟩
  | cons o os ih =>
    rw [withValues_cons]
    cases i with
    | zero => exact ⟨_, rfl⟩
    | succ i => exact ih _ i

theorem foldl_selected_withValues (os : List Operand) :
    (withValues value position os).foldl (fun imported o => o.selected g opcode imported) imported =
      os.foldl (fun imported o => o.selected g opcode imported) imported := by
  induction os generalizing position imported with
  | nil => rfl
  | cons o os ih => rw [withValues_cons, List.foldl_cons, List.foldl_cons, selected_withValue, ih]

/-- An operand with the value that stands at its place has the words that stand there. -/
theorem Agrees.words_withValue {o : Operand} (h : Agrees value position o.words [(position, o)])
    (hone : o.kind.isPlain = true → o.more = []) :
    (o.withValue (value position)).words =
      (List.range' position o.words.length).map value := by
  cases hplain : o.kind.isPlain with
  | true =>
    rw [words, words, first_withValue hplain, more_withValue, hone hplain]
    rfl
  | false =>
    rw [withValue_eq_self hplain]
    refine List.ext_getElem (by simp) fun n hn _ => ?_
    rw [List.getElem_map, List.getElem_range', Nat.one_mul]
    rcases h n _ (List.getElem?_eq_getElem hn) with hvalue | ⟨o', ho', hplain'⟩
    · exact hvalue.symm
    · obtain rfl : o' = o := congrArg Prod.snd (List.mem_singleton.mp ho')
      rw [hplain] at hplain'
      contradiction

/-- **Operands with other values** have the words that stand at their places. -/
theorem Agrees.flatMap_words {os : List Operand}
    (h : Agrees value position (os.flatMap words) (placed position os))
    (hone : ∀ o ∈ os, o.kind.isPlain = true → o.more = []) :
    (withValues value position os).flatMap words =
      (List.range' position (os.flatMap words).length).map value := by
  induction os generalizing position with
  | nil => rfl
  | cons o os ih =>
    have hsplit : Agrees value position (o.words ++ os.flatMap words)
        ([(position, o)] ++ placed (position + o.words.length) os) := h
    have hfirst := hsplit.left fun n o' ho' => (bounds_of_mem_placed ho').1
    have hrest := hsplit.right fun n o' ho' => by
      have := congrArg Prod.fst (List.mem_singleton.mp ho')
      have := length_words o
      dsimp only at *
      omega
    rw [withValues_cons, List.flatMap_cons, hfirst.words_withValue (hone o List.mem_cons_self),
      ih hrest fun o' ho' => hone o' (List.mem_cons_of_mem _ ho'), List.flatMap_cons,
      List.length_append, ← List.map_append, ← List.range'_append, Nat.one_mul]

end Operand

open Operand

/-! ## The operands of an instruction -/

namespace Format

variable {f : Format} {imported : Option ExtInstSet} {os : List Operand} {value : Nat → Word}
  {position : Nat}

/-- What a fixed position holds does not depend on the plain operands. -/
theorem Fits.holds_withValues_iff (h : f.Fits .core imported os) {j : Nat} {e : Enumerant} :
    f.Holds .core ((Operand.withValues value position os).map words) j e ↔
      f.Holds .core (os.map words) j e := by
  -- only a position of an enumerated kind holds an enumerant, and no plain operand stands there
  have hsegment : ∀ kind, f.fixed[j]? = some kind → kind.isEnumerated = true →
      ((Operand.withValues value position os).map words)[j]? = (os.map words)[j]? := by
    intro kind hkind henum
    obtain ⟨w, hw⟩ := exists_getElem?_withValues value position os j
    rw [List.getElem?_map, List.getElem?_map, hw]
    cases ho : os[j]? with
    | none => rfl
    | some o =>
      rw [(KindAt.fixed hkind).unique (h j o ho).1] at henum
      rw [Option.map_some, withValue_eq_self (OperandKind.isPlain_of_isEnumerated henum)]
  constructor
  · rintro ⟨kind, word, more, hkind, hword, he, hne⟩
    rw [hsegment kind hkind (Grammar.isEnumerated_of_core_enumerant he)] at hword
    exact ⟨kind, word, more, hkind, hword, he, hne⟩
  · rintro ⟨kind, word, more, hkind, hword, he, hne⟩
    rw [← hsegment kind hkind (Grammar.isEnumerated_of_core_enumerant he)] at hword
    exact ⟨kind, word, more, hkind, hword, he, hne⟩

/-- **The operands of an instruction** can have any other values. -/
theorem Fits.withValues (h : f.Fits .core imported os) :
    f.Fits .core imported (Operand.withValues value position os) := by
  intro i o' ho'
  obtain ⟨w, hw⟩ := exists_getElem?_withValues value position os i
  rw [hw] at ho'
  obtain ⟨o, ho, rfl⟩ := Option.map_eq_some_iff.mp ho'
  obtain ⟨hkind, hshows⟩ := h i o ho
  rw [kind_withValue]
  exact ⟨hkind.congr fun _ _ => h.holds_withValues_iff, hshows.withValue w⟩

end Format

/-! ## Instructions -/

namespace Instruction

/-- The operands with the places of their first words in the module. -/
def placed (i : Instruction) : List (Nat × Operand) := Operand.placed (i.position + 1) i.operands

/-- The instruction with the values that stand at the places of its plain operands. -/
def withValues (value : Nat → Word) (i : Instruction) : Instruction :=
  { i with operands := Operand.withValues value (i.position + 1) i.operands }

variable {g : Grammar} {imported : Option ExtInstSet} {i : Instruction} {own : List Word}
  {value : Nat → Word}

/-- An operand lies in the words of its instruction, behind the first of them. -/
theorem Written.bounds_of_mem_placed (h : Written g imported i own) {n : Nat} {o : Operand}
    (ho : (n, o) ∈ i.placed) : i.position < n ∧ n < i.position + own.length := by
  have hbounds := Operand.bounds_of_mem_placed ho
  cases h with
  | intro =>
    rw [length_words] at hbounds
    rw [List.length_cons]
    dsimp only at *
    omega

/-- **An instruction** can have any other values of its plain operands. -/
theorem Written.withValues (h : Written .core imported i own)
    (hagrees : Agrees value i.position own i.placed) :
    Written .core imported (i.withValues value)
      ((List.range' i.position own.length).map value) := by
  have hbounds := fun n o => h.bounds_of_mem_placed (n := n) (o := o)
  cases h with
  | @intro first f os position hf hleast hcount hos =>
    have hsplit : Agrees value position ([first] ++ os.flatMap words)
        ([] ++ Operand.placed (position + 1) os) := hagrees
    have hfirst : value position = first := by
      rcases hagrees 0 first rfl with hvalue | ⟨o, ho, -⟩
      · exact hvalue
      · exact absurd (hbounds _ o ho).1 (Nat.lt_irrefl _)
    have hone : ∀ o ∈ os, o.kind.isPlain = true → o.more = [] := by
      intro o ho
      obtain ⟨n, hn⟩ := List.mem_iff_getElem?.mp ho
      exact (hos n o hn).2.more_eq_nil
    have hrest : (Operand.withValues value (position + 1) os).flatMap words =
        (List.range' (position + 1) (os.flatMap words).length).map value :=
      (hsplit.right fun _ _ ho => absurd ho List.not_mem_nil).flatMap_words hone
    show Written .core imported _
      ((List.range' position ((os.flatMap words).length + 1)).map value)
    rw [List.range'_succ, List.map_cons, hfirst, ← hrest]
    refine .intro position hf hleast ?_ hos.withValues
    rw [hrest, List.length_map, List.length_range', hcount]

theorem selected_withValues : (i.withValues value).selected g imported = i.selected g imported :=
  foldl_selected_withValues i.operands

/-- An instruction that stays as it is keeps each of its operands. -/
theorem withValue_of_withValues_eq_self (h : i.withValues value = i) {n : Nat} {o : Operand}
    (ho : (n, o) ∈ i.placed) : o.withValue (value n) = o := by
  have hos : Operand.withValues value (i.position + 1) i.operands = i.operands :=
    congrArg Instruction.operands h
  unfold placed at ho
  generalize i.position + 1 = position at ho hos
  generalize i.operands = os at ho hos
  induction os generalizing position with
  | nil => exact absurd ho List.not_mem_nil
  | cons o' os ih =>
    obtain ⟨hfirst, hrest⟩ := List.cons.inj hos
    rcases List.mem_cons.mp ho with heq | ho
    · cases heq
      exact hfirst
    · exact ih _ ho hrest

end Instruction

open Instruction

/-! ## Instructions one after another -/

/-- An operand of one of the instructions lies in their words. -/
theorem Code.bounds_of_mem_placed {g : Grammar} {position : Nat} {imported : Option ExtInstSet}
    {is : List Instruction} {ws : List Word} (h : Code g position imported is ws) {n : Nat}
    {o : Operand} (ho : (n, o) ∈ is.flatMap Instruction.placed) :
    position < n ∧ n < position + ws.length := by
  induction h with
  | nil => exact absurd ho List.not_mem_nil
  | cons hposition hi _ ih =>
    rw [List.length_append]
    rcases List.mem_append.mp ho with ho | ho
    · have := hi.bounds_of_mem_placed ho
      omega
    · have := ih ho
      omega

/-- **Instructions one after another** can have any other values of their plain operands. -/
theorem Code.withValues {value : Nat → Word} {position : Nat} {imported : Option ExtInstSet}
    {is : List Instruction} {ws : List Word} (h : Code .core position imported is ws)
    (hagrees : Agrees value position ws (is.flatMap Instruction.placed)) :
    Code .core position imported (is.map (·.withValues value))
      ((List.range' position ws.length).map value) := by
  induction h with
  | nil position imported => exact .nil position imported
  | @cons position imported i own is rest hposition hi his ih =>
    subst hposition
    have hfirst := hagrees.left fun n o ho => Nat.le_of_lt (his.bounds_of_mem_placed ho).1
    have hrest := hagrees.right fun n o ho => (hi.bounds_of_mem_placed ho).2
    rw [List.length_append, ← List.range'_append, Nat.one_mul, List.map_append]
    refine .cons rfl (hi.withValues hfirst) ?_
    rw [List.length_map, List.length_range', selected_withValues]
    exact ih hrest

/-! ## Modules -/

/-- A module with other words at the places of plain operands is read to its end. -/
theorem exists_items_withValues {words words' : List Word} {m : Module} {is : List Instruction}
    (hm : (Module.ofWords words).outcome = .ok m)
    (his : (Cursor.first m).items .core = is.map .ok) (hlen : words'.length = words.length)
    (hsame : ∀ n, words'[n]? ≠ words[n]? →
      ∃ i ∈ is, ∃ o, (n, o) ∈ i.placed ∧ o.kind.isPlain = true) :
    ∃ m', (Module.ofWords words').outcome = .ok m' ∧ m'.order = m.order ∧ m'.header = m.header ∧
      (Cursor.first m').items .core =
        (is.map (·.withValues fun n => m.order.fix (words'.getD n 0))).map .ok := by
  have hcode : Code .core Header.size none is (m.code.map m.order.fix) :=
    (Cursor.items_eq_map_ok_iff rfl).mp his
  have hplaces : ∀ n, words'[n]? ≠ words[n]? →
      ∃ o, (n, o) ∈ is.flatMap Instruction.placed ∧ o.kind.isPlain = true := by
    intro n hn
    obtain ⟨i, hi, o, ho, hplain⟩ := hsame n hn
    exact ⟨o, List.mem_flatMap.mpr ⟨i, hi, ho⟩, hplain⟩
  -- no operand stands in the header
  have htake : words'.take Header.size = words.take Header.size := by
    refine List.ext_getElem? fun n => ?_
    rw [List.getElem?_take, List.getElem?_take]
    split
    · by_contra hne
      obtain ⟨o, ho, -⟩ := hplaces n hne
      have := (hcode.bounds_of_mem_placed ho).1
      omega
    · rfl
  have hlength : words'.length = Header.size + m.code.length := hlen.trans (Module.length_eq hm)
  have hcode' : (words'.drop Header.size).map m.order.fix =
      (List.range' Header.size (m.code.map m.order.fix).length).map
        fun n => m.order.fix (words'.getD n 0) := by
    refine List.ext_getElem (by simp; omega) fun n hn hn' => ?_
    rw [List.length_map, List.length_drop] at hn
    rw [List.getElem_map, List.getElem_map, List.getElem_drop, List.getElem_range', Nat.one_mul,
      List.getD_eq_getElem?_getD, List.getElem?_eq_getElem (by omega), Option.getD_some]
  refine ⟨_, Module.ofWords_of_take_eq hm htake, rfl, rfl, ?_⟩
  refine (Cursor.items_eq_map_ok_iff rfl).mpr ?_
  show Code .core Header.size none _ ((words'.drop Header.size).map m.order.fix)
  rw [hcode']
  refine hcode.withValues fun n w hw => ?_
  by_cases hn : words'[Header.size + n]? = words[Header.size + n]?
  · left
    rw [List.getElem?_map, Option.map_eq_some_iff, Module.code_eq hm] at hw
    obtain ⟨loaded, hloaded, rfl⟩ := hw
    rw [List.getD_eq_getElem?_getD, hn, ← List.getElem?_drop, hloaded, Option.getD_some]
  · exact .inr (hplaces _ hn)

/-- **Values do not shape a disassembly.** In a module that is read to its end, put any other words
in place of ids, result ids and literals. The module is still read to its end, as the same
instructions with the new values, and operands of which no word was replaced stay as they are. -/
theorem values_keep_shape {words words' : List Word} {m : Module} {is : List Instruction}
    (hm : (Module.ofWords words).outcome = .ok m)
    (his : (Cursor.first m).items .core = is.map .ok) (hlen : words'.length = words.length)
    (hsame : ∀ n, words'[n]? ≠ words[n]? →
      ∃ i ∈ is, ∃ o, (n, o) ∈ i.placed ∧ o.kind.isPlain = true) :
    let value n := m.order.fix (words'.getD n 0)
    (∃ m', (Module.ofWords words').outcome = .ok m' ∧ m'.order = m.order ∧ m'.header = m.header ∧
      (Cursor.first m').items .core = (is.map (·.withValues value)).map .ok) ∧
    ∀ i ∈ is, ∀ n o, (n, o) ∈ i.placed → words'[n]? = words[n]? → o.withValue (value n) = o := by
  intro value
  refine ⟨exists_items_withValues hm his hlen hsame, fun i hi n o ho hn => ?_⟩
  -- read with the values that it has, the module gives the instructions that it gave before
  obtain ⟨m', hm', -, -, hitems⟩ :=
    exists_items_withValues hm his rfl fun n hn => absurd rfl hn
  rw [hm] at hm'
  cases hm'
  have hself : is.map (·.withValues fun n => m.order.fix (words.getD n 0)) = is :=
    List.map_injective_iff.mpr (fun _ _ h => Except.ok.inj h) (hitems.symm.trans his)
  have hi' : i.withValues (fun n => m.order.fix (words.getD n 0)) = i :=
    List.map_eq_map_iff.mp (hself.trans (List.map_id is).symm) i hi
  have ho' := withValue_of_withValues_eq_self hi' ho
  rwa [List.getD_eq_getElem?_getD, ← hn, ← List.getD_eq_getElem?_getD] at ho'

/-- A member name and a decoration with a parameter. The ids, the member and the parameter are
replaced, also by numbers that are those of decorations with other parameters. -/
theorem values_keep_shape_decoration :
    let words := [magicNumber, 0x00010000, 0, 10, 0, 0x00040006, 1, 0, 0x00006261,
      0x00040047, 1, 1, 7]
    let words' := [magicNumber, 0x00010000, 0, 10, 0, 0x00040006, 41, 0xFFFFFFFF, 0x00006261,
      0x00040047, 0, 1, 41]
    let texts (is : List Instruction) := is.map fun i => i.operands.map (·.fragment.text)
    ∃ (m : Module) (is : List Instruction), (Module.ofWords words).outcome = .ok m ∧
      (Cursor.first m).items .core = is.map .ok ∧ words'.length = words.length ∧
      (∀ n, words'[n]? ≠ words[n]? →
        ∃ i ∈ is, ∃ o, (n, o) ∈ i.placed ∧ o.kind.isPlain = true) ∧
      texts is = [["%1", "0", "ab"], ["%1", "SpecId", "7"]] ∧
      ∃ m' is', (Module.ofWords words').outcome = .ok m' ∧
        (Cursor.first m').items .core = is'.map .ok ∧
        is' = is.map (·.withValues fun n => m.order.fix (words'.getD n 0)) ∧
        texts is' = [["%41", "4294967295", "ab"], ["%0", "SpecId", "41"]] := by
  intro words words' texts
  let name : Instruction := ⟨.opMemberName, 5, 4, none, [⟨.id, 1, [], ⟨some .id, "%1"⟩⟩,
    ⟨.literal, 0, [], ⟨some .literal, "0"⟩⟩,
    ⟨.literalString, 0x00006261, [], ⟨some .string, "ab"⟩⟩]⟩
  let decoration : Instruction := ⟨.opDecorate, 9, 4, none, [⟨.id, 1, [], ⟨some .id, "%1"⟩⟩,
    ⟨.decoration, 1, [], ⟨none, "SpecId"⟩⟩, ⟨.literal, 7, [], ⟨some .literal, "7"⟩⟩]⟩
  have hm : (Module.ofWords words).outcome = .ok ⟨.little, .ofBound 10, words.drop 5⟩ := rfl
  have his : (Cursor.first ⟨.little, .ofBound 10, words.drop 5⟩).items .core =
      [name, decoration].map .ok := by decide +kernel
  have hsame : ∀ n, words'[n]? ≠ words[n]? →
      ∃ i ∈ [name, decoration], ∃ o, (n, o) ∈ i.placed ∧ o.kind.isPlain = true := by
    intro n hn
    have hlt : n < 13 := by
      by_contra hge
      exact hn (by rw [List.getElem?_eq_none, List.getElem?_eq_none] <;> exact Nat.le_of_not_lt hge)
    have hplace : ∀ n < 13, words'[n]? ≠ words[n]? → n ∈ [6, 7, 10, 12] := by decide
    have hmem := hplace n hlt hn
    simp only [List.mem_cons, List.not_mem_nil, or_false] at hmem
    rcases hmem with rfl | rfl | rfl | rfl
    · exact ⟨name, by decide, ⟨.id, 1, [], ⟨some .id, "%1"⟩⟩, by decide, rfl⟩
    · exact ⟨name, by decide, ⟨.literal, 0, [], ⟨some .literal, "0"⟩⟩, by decide, rfl⟩
    · exact ⟨decoration, by decide, ⟨.id, 1, [], ⟨some .id, "%1"⟩⟩, by decide, rfl⟩
    · exact ⟨decoration, by decide, ⟨.literal, 7, [], ⟨some .literal, "7"⟩⟩, by decide, rfl⟩
  have hlen : words'.length = words.length := rfl
  obtain ⟨m', hm', -, -, hitems⟩ := (values_keep_shape hm his hlen hsame).1
  exact ⟨_, _, hm, his, hlen, hsame, rfl, m', _, hm', hitems, rfl, by decide +kernel⟩

end Spirv

import Spirv.Proofs.Run

/-!
# Code behind other code

Reading the instructions of two pieces of code that stand one behind the other is reading the one
and then the other. What the second piece is read as depends on the first only through the extended
instruction set that this leaves selected, and through the place where it starts.

- `Diagnostic.moved`, `Instruction.moved`, `Item.moved`, `Cursor.moved`: the same, some words
  further on. Reading does not depend on the place: `Operand.read_moved`, `Operand.readAll_moved`,
  `Instruction.read_moved`, `Cursor.next_moved`, `Cursor.items_moved`.
- `Cursor.next_take_append`: an instruction that is read does not depend on what stands behind it.
- `Cursor.exists_reads_append`: code that is read to its end is read the same before other code.
- `items_append`: reading one piece of code behind another.
-/

namespace Spirv

variable {g : Grammar} {order : ByteOrder}

/-! ## Other places -/

/-- The same fault, `n` words further on. -/
def Diagnostic.moved (n : Nat) (d : Diagnostic) : Diagnostic :=
  { d with position := d.position + n }

/-- The same instruction, `n` words further on. -/
def Instruction.moved (n : Nat) (i : Instruction) : Instruction :=
  { i with position := i.position + n }

/-- The same item, `n` words further on. -/
def Item.moved (n : Nat) : Item → Item
  | .ok i => .ok (i.moved n)
  | .error d => .error (d.moved n)

/-- The same words, `n` words further on in their module. -/
def Cursor.moved (n : Nat) (c : Cursor) : Cursor :=
  { c with position := c.position + n }

theorem Operand.read_moved {opcode : Opcode} {imported : Option ExtInstSet} {kind : OperandKind}
    {position : Nat} (n : Nat) (words : List Word) :
    read g order opcode imported kind (position + n) words =
      (read g order opcode imported kind position words).mapError (·.moved n) := by
  cases words with
  | nil => rfl
  | cons word rest =>
    dsimp only [read]
    split
    · split
      · rfl
      · split
        · rfl
        · rfl
    · split
      · rfl
      · rfl

theorem Operand.readAll_moved {f : Format} {truncated : Diagnostic} {left position : Nat}
    {p : Progress} (n : Nat) (words : List Word) :
    readAll g order f (truncated.moved n) left (position + n) words p =
      (readAll g order f truncated left position words p).mapError (·.moved n) := by
  fun_induction readAll g order f truncated left position words p with
  | case1 =>
    rw [readAll]
    rfl
  | case2 =>
    rw [readAll]
    rfl
  | case3 position p left word rest first index active hkind =>
    rw [readAll]
    dsimp only
    rw [hkind]
    rfl
  | case4 position p left word rest first index active kind hkind d hread =>
    rw [readAll_of_read_eq_error rfl hkind (by rw [read_moved, hread, Except.mapError])]
    rfl
  | case5 position p left word rest first index active kind hkind o imported hread more ih =>
    have hposition : position + n + 1 + more = position + 1 + more + n := by omega
    rw [readAll_of_read_eq_ok rfl hkind (by rw [read_moved, hread, Except.mapError]), hposition]
    exact ih

theorem Instruction.read_moved {imported : Option ExtInstSet} {position : Nat} (n : Nat)
    (words : List Word) :
    read g order imported (position + n) words =
      ((read g order imported position words).mapError (·.moved n)).map
        fun r => (r.1.moved n, r.2) := by
  cases words with
  | nil => rfl
  | cons word rest =>
    dsimp only [read]
    split
    · rfl
    · next f hf =>
      split
      · rfl
      · have hposition : position + n + 1 = position + 1 + n := by omega
        have htruncated :
            (⟨position + n, some (order.fix word), .truncatedInstruction f.opcode⟩ : Diagnostic) =
              Diagnostic.moved n
                ⟨position, some (order.fix word), .truncatedInstruction f.opcode⟩ := rfl
        rw [hposition, htruncated, Operand.readAll_moved]
        rcases Operand.readAll g order f _ _ (position + 1) rest { imported } with d | p
        · rfl
        · rfl

namespace Cursor

/-- **One read** does not depend on the place. -/
theorem next_moved (n : Nat) (c : Cursor) :
    (c.moved n).next g = (c.next g).map fun r => (Item.moved n r.1, r.2.moved n) := by
  obtain ⟨order, position, rest, imported, failed⟩ := c
  simp only [moved, next, Instruction.read_moved]
  split
  · rfl
  · rcases Instruction.read g order imported position rest with d | ⟨i, after⟩
    · rfl
    · show (if i.taken = i.wordCount then _ else _) = Option.map _ (if i.taken = i.wordCount then _
        else _)
      by_cases htaken : i.taken = i.wordCount
      · rw [if_pos htaken, if_pos htaken, Nat.add_right_comm]
        rfl
      · rw [if_neg htaken, if_neg htaken]
        rfl

/-- **All reads** are the same at any other place. -/
theorem items_moved (n : Nat) (c : Cursor) :
    (c.moved n).items g = (c.items g).map (Item.moved n) := by
  rw [items_eq, items_eq c, next_moved]
  rcases hnext : c.next g with _ | ⟨item, c'⟩
  · rfl
  · exact congrArg (Item.moved n item :: ·) (items_moved n c')
termination_by c.measure
decreasing_by exact measure_next hnext

/-! ## Other words behind -/

/-- **An instruction that is read** does not depend on what stands behind it. -/
theorem next_take_append {c c' : Cursor} {i : Instruction} (h : c.next g = some (.ok i, c'))
    (more : List Word) :
    ({ c with rest := c.rest.take i.wordCount ++ more }).next g =
      some (.ok i, { c' with rest := more }) := by
  obtain ⟨hlive, own, rest, hrest, hi, hposition, rfl⟩ := next_eq_ok_iff.mp h
  have hown : (c.rest.take own.length).map c.order.fix = own := by
    rw [List.map_take, hrest, List.take_left]
  have hlen : (c.rest.take own.length).length = own.length := by
    rw [← List.length_map c.order.fix, hown]
  rw [← hi.length_eq]
  refine next_eq_ok_iff.mpr ⟨hlive, own, more.map c.order.fix, ?_, hi, hposition, ?_⟩
  · rw [List.map_append, hown]
  · simp [hlen]

/-- **Code that is read to its end** is read the same before other code, which leads to the end of
the former with the set that it leaves selected. -/
theorem exists_reads_append {c : Cursor} (hlive : c.failed = false) {is : List Instruction}
    (h : c.items g = is.map .ok) (more : List Word) :
    Reads g { c with rest := c.rest ++ more } is
      { c with
        position := c.position + c.rest.length
        rest := more
        imported := (c.last g).imported } := by
  obtain ⟨c', hreads, hend⟩ := items_eq_append_iff.mp (h.trans (List.append_nil _).symm)
  have hstops : Stops g c' none := stops_iff.mpr hend
  have hlast : c.last g = c' := hreads.last_eq.trans hstops.last_eq
  obtain ⟨own, rest, hrest, hcode, rfl⟩ := (reads_iff hlive).mp hreads
  -- nothing is left behind the instructions
  have hnil : c.rest.drop own.length = [] := by
    rcases next_eq_none_iff.mp (items_eq_nil_iff.mp hend) with hfailed | hnil
    · rw [show (c.behind g is own.length).failed = c.failed from rfl, hlive] at hfailed
      contradiction
    · exact hnil
  have hlen : own.length = c.rest.length := by
    have hle := congrArg List.length hrest
    rw [List.length_map, List.length_append] at hle
    have hge := List.drop_eq_nil_iff.mp hnil
    omega
  refine (reads_iff (by exact hlive)).mpr ⟨own, rest ++ more.map c.order.fix, ?_, hcode, ?_⟩
  · rw [List.map_append, hrest, List.append_assoc]
  · rw [hlast, hlen]
    simp [behind]

end Cursor

/-- **Reading one piece of code behind another.** If the code `a` is read to its end, then in front
of the code `b` it is read the same, and `b` is read as it is behind the header alone, from the
extended instruction set on that `a` leaves selected, with all positions further on by the length of
`a`. A read depends on the place of its words in no other way, and an instruction does not depend on
the words behind it. -/
theorem items_append (g : Grammar) {header : List Word} {m : Module}
    (hsize : header.length = Header.size) (hm : (Module.ofWords header).outcome = .ok m)
    (a b : List Word) :
    ∃ ma mb mab, (Module.ofWords (header ++ a)).outcome = .ok ma ∧
      (Module.ofWords (header ++ b)).outcome = .ok mb ∧
      (Module.ofWords (header ++ a ++ b)).outcome = .ok mab ∧
      (∀ is : List Instruction, (Cursor.first ma).items g = is.map .ok →
        (Cursor.first mab).items g = is.map .ok ++
          ({ Cursor.first mb with imported := ((Cursor.first ma).last g).imported }.items g).map
            (Item.moved a.length)) ∧
      (∀ (c : Cursor) n, (c.moved n).next g =
        (c.next g).map fun r => (Item.moved n r.1, r.2.moved n)) ∧
      ∀ (c c' : Cursor) i, c.next g = some (.ok i, c') → ∀ more,
        ({ c with rest := c.rest.take i.wordCount ++ more }).next g =
          some (.ok i, { c' with rest := more }) := by
  obtain ⟨header', hsize', hwords, hcode⟩ := Module.exists_header hm
  have hnil : m.code = [] := by
    have hlen := Module.length_eq hm
    exact List.length_eq_zero_iff.mp (by omega)
  rw [hnil, List.append_nil] at hwords
  subst hwords
  refine ⟨{ m with code := a }, { m with code := b }, { m with code := a ++ b }, hcode a, hcode b,
    ?_, ?_, fun c n => Cursor.next_moved n c, fun c c' i hnext => Cursor.next_take_append hnext⟩
  · rw [List.append_assoc]
    exact hcode (a ++ b)
  · intro is his
    have hreads := Cursor.exists_reads_append rfl his b
    have hplace : ∀ imported : Option ExtInstSet,
        ({ Cursor.first { m with code := a } with
          position := Header.size + a.length
          rest := b
          imported } : Cursor) =
          ({ Cursor.first { m with code := b } with imported } : Cursor).moved a.length :=
      fun _ => rfl
    rw [← Cursor.items_moved, ← hplace]
    exact hreads.items_eq

/-- An import before an extended instruction that has no name without it, and an unknown opcode. -/
theorem items_append_import :
    let header := [magicNumber, 0x00010000, 0, 5, 0]
    let a := [0x0006000B, 1, 0x4C534C47, 0x6474732E, 0x3035342E, 0]
    let b := [0x0006000C, 2, 3, 1, 31, 4, 0x0001FFFF]
    header.length = Header.size ∧ ∃ (m ma mb mab : Module) (is : List Instruction),
      (Module.ofWords header).outcome = .ok m ∧
      (Module.ofWords (header ++ a)).outcome = .ok ma ∧
      (Module.ofWords (header ++ b)).outcome = .ok mb ∧
      (Module.ofWords (header ++ a ++ b)).outcome = .ok mab ∧
      (Cursor.first ma).items .core = is.map .ok ∧
      ((Cursor.first ma).last .core).imported = some .glslStd450 ∧
      (Cursor.first mab).items .core = is.map .ok ++
        ({ Cursor.first mb with imported := some .glslStd450 }.items .core).map
          (Item.moved a.length) := by
  intro header a b
  have hsize : header.length = Header.size := rfl
  have hm : (Module.ofWords header).outcome = .ok ⟨.little, .ofBound 5, []⟩ := rfl
  obtain ⟨ma, mb, mab, hma, hmb, hmab, happend, -, -⟩ := items_append .core hsize hm a b
  obtain rfl : ma = ⟨.little, .ofBound 5, a⟩ := Except.ok.inj (hma.symm.trans rfl)
  have his : (Cursor.first ⟨.little, .ofBound 5, a⟩).items .core =
      (((Cursor.first ⟨.little, .ofBound 5, a⟩).items .core).filterMap Except.toOption).map
        .ok := by
    decide +kernel
  have himported : ((Cursor.first ⟨.little, .ofBound 5, a⟩).last .core).imported =
      some .glslStd450 := by decide +kernel
  have hitems := happend _ his
  rw [himported] at hitems
  exact ⟨hsize, _, _, mb, mab, _, hm, hma, hmb, hmab, his, himported, hitems⟩

end Spirv

import Spirv.Proofs.Listing

/-!
# The byte order of a module does not show

Words whose bytes stand in the opposite order are read as the same, at every level of reading: the
two runs take the same steps, and each word that either of them looks at is corrected once.

- `Packed.read?_swap`, `Operand.read_swap`, `Operand.readAll_swap`, `Instruction.read_swap`: the
  parts of an instruction.
- `Cursor.swap`: the same place in the module of the opposite order; `Cursor.next_swap` is the step
  and `Cursor.items_swap` the run.
- `Listing.run_swap`: the text and the failure of a listing.
- `SameReading`: two modules are read alike; `sameReading_of_magic` says that a module and the one
  of the opposite order are.
-/

namespace Spirv

variable {g : Grammar} {order : ByteOrder}

@[simp] theorem ByteOrder.fix_comp_swap :
    order.opposite.fix ∘ Word.swap = order.fix :=
  funext (ByteOrder.fix_opposite_swap order)

/-- The words of the opposite order are corrected to the same. -/
theorem ByteOrder.map_fix_swap (words : List Word) :
    (words.map Word.swap).map order.opposite.fix = words.map order.fix := by
  rw [List.map_map, fix_comp_swap]

/-! ## Instructions -/

theorem Packed.read?_swap (words : List Word) :
    read? order.opposite (words.map Word.swap) = read? order words := by
  rw [read?_eq_map, read?_eq_map, ByteOrder.map_fix_swap]

theorem Operand.read_swap {opcode : Opcode} {imported : Option ExtInstSet} {kind : OperandKind}
    {position : Nat} (words : List Word) :
    read g order.opposite opcode imported kind position (words.map Word.swap) =
      read g order opcode imported kind position words := by
  cases words with
  | nil => rfl
  | cons word rest =>
    have hstring : Packed.read? order.opposite (word.swap :: rest.map Word.swap) =
        Packed.read? order (word :: rest) := Packed.read?_swap (word :: rest)
    have hmore : ∀ count, ((rest.map Word.swap).take count).map order.opposite.fix =
        (rest.take count).map order.fix := by
      intro count
      rw [← List.map_take, ByteOrder.map_fix_swap]
    simp only [List.map_cons, read, ByteOrder.fix_opposite_swap, hstring, hmore]

theorem Operand.readAll_swap {f : Format} {truncated : Diagnostic} {left position : Nat}
    {p : Progress} (words : List Word) :
    readAll g order.opposite f truncated left position (words.map Word.swap) p =
      readAll g order f truncated left position words p := by
  fun_induction readAll g order f truncated left position words p with
  | case1 => rw [readAll]
  | case2 => rw [List.map_nil, readAll]
  | case3 position p left word rest first index active hkind =>
    rw [List.map_cons, readAll, ByteOrder.fix_opposite_swap]
    dsimp only
    rw [hkind]
  | case4 position p left word rest first index active kind hkind d hread =>
    rw [← read_swap] at hread
    exact readAll_of_read_eq_error (ByteOrder.fix_opposite_swap order word) hkind hread
  | case5 position p left word rest first index active kind hkind o imported hread more ih =>
    rw [← read_swap] at hread
    rw [List.map_cons,
      readAll_of_read_eq_ok (ByteOrder.fix_opposite_swap order word) hkind hread, ← List.map_drop]
    exact ih

theorem Instruction.read_swap {imported : Option ExtInstSet} {position : Nat}
    (words : List Word) :
    read g order.opposite imported position (words.map Word.swap) =
      read g order imported position words := by
  cases words with
  | nil => rfl
  | cons word rest =>
    simp only [List.map_cons, read, ByteOrder.fix_opposite_swap, Operand.readAll_swap]

/-! ## Cursors -/

namespace Cursor

/-- The same place in the module of the opposite order. -/
def swap (c : Cursor) : Cursor :=
  { c with order := c.order.opposite, rest := c.rest.map Word.swap }

/-- **One read** gives the same and leads to the same place. -/
theorem next_swap (c : Cursor) :
    c.swap.next g = (c.next g).map fun r => (r.1, r.2.swap) := by
  obtain ⟨order, position, rest, imported, failed⟩ := c
  have hempty : (rest.map Word.swap).isEmpty = rest.isEmpty := by
    cases rest <;> rfl
  simp only [swap, next, hempty, Instruction.read_swap]
  split
  · rfl
  · split
    · rfl
    · split
      · simp only [Option.map_some, List.map_drop]
      · rfl

/-- **All reads** give the same. -/
theorem items_swap (c : Cursor) : c.swap.items g = c.items g := by
  rw [items_eq, items_eq c, next_swap]
  rcases hnext : c.next g with _ | ⟨item, c'⟩
  · rfl
  · exact congrArg (item :: ·) (items_swap c')
termination_by c.measure
decreasing_by exact measure_next hnext

end Cursor

/-! ## Listings -/

namespace Listing

variable {σ : Type} {p : Palette} {emit : σ → String → σ × Option Error}

/-- The lines are the same, whatever has been reported before. -/
theorem lines_swap (out : σ) (log log' : Log) (c : Cursor) :
    (lines g p emit out log' c.swap).out = (lines g p emit out log c).out ∧
      (lines g p emit out log' c.swap).failure = (lines g p emit out log c).failure := by
  rw [lines_eq, lines_eq out log c, Cursor.next_swap]
  rcases hnext : c.next g with _ | ⟨d | i, c'⟩
  · exact ⟨rfl, rfl⟩
  · exact ⟨rfl, rfl⟩
  · dsimp only [Option.map_some]
    rcases emit out (i.line p) with ⟨out', _ | e⟩
    · exact lines_swap out' _ _ c'
    · exact ⟨rfl, rfl⟩
termination_by c.measure
decreasing_by exact Cursor.measure_next hnext

end Listing

/-! ## Modules -/

theorem Header.read_swap (words : List Word) :
    read (words.map Word.swap) order.opposite = read words order := by
  match words with
  | [] | [_] | [_, _] | [_, _, _] | [_, _, _, _] => rfl
  | _ :: _ :: _ :: _ :: _ :: _ => simp only [List.map_cons, read, ByteOrder.fix_opposite_swap]

/-- The module of the opposite order. -/
def Module.swap (m : Module) : Module :=
  { m with order := m.order.opposite, code := m.code.map Word.swap }

/-- The words start with the magic number in one order or the other. -/
def StartsWithMagic (words : List Word) : Prop :=
  words.head? = some magicNumber ∨ words.head? = some magicNumber.swap

instance (words : List Word) : Decidable (StartsWithMagic words) :=
  inferInstanceAs (Decidable (_ ∨ _))

theorem ByteOrder.detect_swap {words : List Word} (h : StartsWithMagic words) :
    ∃ order, (detect words).outcome = .ok order ∧
      (detect (words.map Word.swap)).outcome = .ok order.opposite := by
  have hne : magicNumber.swap ≠ magicNumber := by decide
  have hbig : ∀ rest, (detect (magicNumber.swap :: rest)).outcome = .ok big := by
    intro rest
    rw [detect, if_neg hne, if_pos rfl]
  rcases h with h | h
  · obtain ⟨rest, rfl⟩ := List.head?_eq_some_iff.mp h
    exact ⟨little, rfl, hbig _⟩
  · obtain ⟨rest, rfl⟩ := List.head?_eq_some_iff.mp h
    refine ⟨big, hbig rest, ?_⟩
    rw [List.map_cons, Word.swap_swap]
    rfl

/-- **Opening** gives the same header or the same failure. -/
theorem Module.ofWords_swap {words : List Word} (h : StartsWithMagic words) :
    (ofWords (words.map Word.swap)).outcome = (ofWords words).outcome.map swap := by
  obtain ⟨order, horder, hopposite⟩ := ByteOrder.detect_swap h
  unfold ofWords
  dsimp only
  rw [horder, hopposite]
  dsimp only
  rw [Header.read_swap]
  rcases Header.read words order with d | header
  · rfl
  · dsimp only [Except.map, swap]
    rw [List.map_drop]

/-- **A listing** hands out the same pieces and fails alike. -/
theorem Listing.run_swap {σ : Type} (p : Palette) (emit : σ → String → σ × Option Error) (out : σ)
    {words : List Word} (h : StartsWithMagic words) :
    (run g p emit out (words.map Word.swap)).out = (run g p emit out words).out ∧
      (run g p emit out (words.map Word.swap)).failure = (run g p emit out words).failure := by
  have hopen := Module.ofWords_swap h
  unfold run
  dsimp only
  rw [hopen]
  rcases (Module.ofWords words).outcome with d | m
  · exact ⟨rfl, rfl⟩
  · dsimp only [Except.map]
    rw [show m.swap.header = m.header from rfl]
    rcases emit out (m.header.comment g p) with ⟨out', _ | e⟩
    · exact lines_swap out' _ _ (Cursor.first m)
    · exact ⟨rfl, rfl⟩

/-- The words `v` and `w` are read alike, although their bytes stand in opposite orders: either
header cannot be read for the same reason, or the headers and all items are the same. Both have the
same listing, or the same part of it before the same failure. -/
structure SameReading (g : Grammar) (p : Palette) (v w : List Word) : Prop where
  orders : ∃ order, (ByteOrder.detect v).outcome = .ok order ∧
    (ByteOrder.detect w).outcome = .ok order.opposite
  items : (∃ d, (Module.ofWords v).outcome = .error d ∧ (Module.ofWords w).outcome = .error d) ∨
    ∃ m n, (Module.ofWords v).outcome = .ok m ∧ (Module.ofWords w).outcome = .ok n ∧
      n.order = m.order.opposite ∧ n.header = m.header ∧
      (Cursor.first n).items g = (Cursor.first m).items g
  text : (disassemble g p w).outcome = (disassemble g p v).outcome
  written : ∀ sink, (write g p w sink).out = (write g p v sink).out ∧
    (write g p w sink).failure = (write g p v sink).failure

theorem sameReading_swap (p : Palette) {words : List Word} (h : StartsWithMagic words) :
    SameReading g p words (words.map Word.swap) where
  orders := ByteOrder.detect_swap h
  items := by
    have hopen := Module.ofWords_swap h
    rcases hm : (Module.ofWords words).outcome with d | m
    · rw [hm] at hopen
      exact .inl ⟨d, rfl, hopen⟩
    · rw [hm] at hopen
      exact .inr ⟨m, m.swap, rfl, hopen, rfl, rfl, (Cursor.first m).items_swap⟩
  text := by
    obtain ⟨hout, hfailure⟩ :=
      Listing.run_swap (g := g) p (fun text piece => (text ++ piece, none)) "" h
    unfold disassemble
    dsimp only
    rw [hfailure]
    split
    · exact congrArg Except.ok hout
    · rfl
  written sink := Listing.run_swap p Sink.write sink h

/-! ## Binaries -/

/-- The bytes of words, lowest first, are loaded as these words. -/
theorem wordsOfBytes_little (values : List Word) :
    wordsOfBytes (values.flatMap Word.bytes) = .ok values := by
  rw [wordsOfBytes, Word.length_flatMap_bytes, if_pos (Nat.mul_mod_right 4 _),
    Word.ofByteList_flatMap_bytes]

/-- The bytes of words, highest first, are loaded as the swapped words. -/
theorem wordsOfBytes_big (values : List Word) :
    wordsOfBytes (values.flatMap fun w => w.bytes.reverse) = .ok (values.map Word.swap) := by
  have hbytes : (values.flatMap fun w => w.bytes.reverse) =
      (values.map Word.swap).flatMap Word.bytes := by
    rw [List.flatMap_map]
    exact congrArg (values.flatMap ·) (funext fun w => w.bytes_swap.symm)
  rw [hbytes, wordsOfBytes_little]

/-- **The byte order does not show.** Whatever a module holds behind its magic number, it is read
like the module whose bytes stand in the opposite order. This holds of loaded words and of the two
binaries that hold the same values. -/
theorem sameReading_of_magic (g : Grammar) (p : Palette) :
    (∀ words, StartsWithMagic words → SameReading g p words (words.map Word.swap)) ∧
    ∀ values : List Word, values.head? = some magicNumber →
      ∃ little big, wordsOfBytes (values.flatMap Word.bytes) = .ok little ∧
        wordsOfBytes (values.flatMap fun w => w.bytes.reverse) = .ok big ∧
        SameReading g p little big :=
  ⟨fun _ h => sameReading_swap p h, fun values h =>
    ⟨_, _, wordsOfBytes_little values, wordsOfBytes_big values, sameReading_swap p (.inl h)⟩⟩

/-- A module whose only instruction has an unknown opcode. -/
theorem sameReading_unknown_opcode :
    let words := [magicNumber, 0x00010000, 0, 5, 0, 0x0001FFFF]
    StartsWithMagic words ∧ SameReading .core .ansi words (words.map Word.swap) ∧
      ∃ little big, wordsOfBytes (words.flatMap Word.bytes) = .ok little ∧
        wordsOfBytes (words.flatMap fun w => w.bytes.reverse) = .ok big ∧
        SameReading .core .ansi little big :=
  ⟨.inl rfl, (sameReading_of_magic .core .ansi).1 _ (.inl rfl),
    (sameReading_of_magic .core .ansi).2 _ rfl⟩

end Spirv

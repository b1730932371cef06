import Spirv.Grammar.Rows
import Spirv.Proofs.Listing

/-!
# Larger grammars

What is read with one grammar is read the same with any grammar that knows more.

- `Grammar.Within`: the answers of one grammar are answers of another. `Grammar.within_ofRows` says
  that new rows make such a grammar.
- `Format.Fits.holds_iff`: the operands of an instruction hold the same enumerants in both, since
  every look-up that decides about a kind is that of an operand which is shown by its answer.
- `Instruction.Written.within`, `Cursor.next_within`: an instruction, written and read.
- `Listing.run_within`: a listing that comes to its end.
- `larger_grammar_agrees`: what a larger grammar keeps of a module.
-/

namespace Spirv

open Operand Instruction

variable {g g' : Grammar}

/-! ## Grammars -/

/-- `g.Within g'`: what the grammar `g` answers, `g'` answers too. Of the kinds that have no
enumerants, which are looked up as well when kinds are assigned, `g'` knows no more than `g`. -/
structure Grammar.Within (g g' : Grammar) : Prop where
  opcode : ∀ {number f}, g.opcode number = some f → g'.opcode number = some f
  enumerant : ∀ {kind word e}, kind.isEnumerated = true → g.enumerant kind word = some e →
    g'.enumerant kind word = some e
  other : ∀ {kind} word, kind.isEnumerated = false → g'.enumerant kind word = g.enumerant kind word
  extInstSet : ∀ {name set}, g.extInstSet name = some set → g'.extInstSet name = some set
  extInst : ∀ {set word name}, g.extInst set word = some name → g'.extInst set word = some name

namespace Grammar

/-- A row that answers a question answers one that had no answer, so that old answers stay. -/
theorem or_find?_eq_some {α β : Type} {rows : List α} {p : α → Bool} {value : α → β}
    {old : Option β} {answer : β} (hfresh : ∀ row ∈ rows, p row = true → old = none)
    (h : old = some answer) : ((rows.find? p).map value).or old = some answer := by
  cases hfind : rows.find? p with
  | none => exact h
  | some row =>
    rw [hfresh row (List.mem_of_find?_eq_some hfind) (List.find?_some hfind)] at h
    contradiction

/-- **New rows** make a larger grammar: those of opcodes, sets and instructions that are unknown so
far, and of enumerants that are unknown so far and of an enumerated kind. -/
theorem within_ofRows {rows : Rows} (hopcodes : ∀ row ∈ rows.opcodes, g.opcode row.1 = none)
    (henumerants : ∀ row ∈ rows.enumerants,
      row.1.isEnumerated = true ∧ g.enumerant row.1 row.2.value = none)
    (hsets : ∀ row ∈ rows.sets, g.extInstSet row.1 = none)
    (hinstructions : ∀ row ∈ rows.instructions, g.extInst row.1 row.2.1 = none) :
    g.Within (ofRows rows g) where
  opcode h := by
    refine or_find?_eq_some (fun row hrow hkey => ?_) h
    rw [← eq_of_beq hkey]
    exact hopcodes row hrow
  enumerant hkind h := by
    refine or_find?_eq_some (fun row hrow hkey => ?_) h
    rw [Bool.and_eq_true, beq_iff_eq, beq_iff_eq] at hkey
    rw [← hkey.1, ← hkey.2]
    exact (henumerants row hrow).2
  other {kind} word hkind := by
    have hnone :
        (rows.enumerants.find? fun row => row.1 == kind && row.2.value == word) = none := by
      rw [List.find?_eq_none]
      intro row hrow hkey
      rw [Bool.and_eq_true, beq_iff_eq] at hkey
      have henum := (henumerants row hrow).1
      rw [hkey.1, hkind] at henum
      contradiction
    simp only [ofRows, hnone, Option.map_none, Option.none_or]
  extInstSet h := by
    refine or_find?_eq_some (fun row hrow hkey => ?_) h
    rw [← eq_of_beq hkey]
    exact hsets row hrow
  extInst h := by
    refine or_find?_eq_some (fun row hrow hkey => ?_) h
    rw [Bool.and_eq_true, beq_iff_eq, beq_iff_eq] at hkey
    rw [← hkey.1, ← hkey.2]
    exact hinstructions row hrow

end Grammar

open Grammar

/-! ## Operands -/

section

variable {opcode : Opcode} {imported : Option ExtInstSet}

theorem Operand.Shows.within (h : g.Within g') {kind : OperandKind} {ws : List Word}
    {fragment : Fragment} (hs : Shows g opcode imported kind ws fragment) :
    Shows g' opcode imported kind ws fragment := by
  cases hs with
  | id w => exact .id w
  | resultId w => exact .resultId w
  | literal w => exact .literal w
  | number w hopcode => exact .number w hopcode
  | extInst hopcode hset hname => exact .extInst hopcode hset (h.extInst hname)
  | enumerant hkind he => exact .enumerant hkind (h.enumerant hkind he)
  | string hws himport =>
    exact .string hws fun hopcode => (himport hopcode).imp fun _ hset => h.extInstSet hset

/-- The first word of an operand is known to both grammars as the same, or to neither. -/
theorem Operand.Shows.enumerant_eq (h : g.Within g') {kind : OperandKind} {word : Word}
    {more : List Word} {fragment : Fragment}
    (hs : Shows g opcode imported kind (word :: more) fragment) :
    g'.enumerant kind word = g.enumerant kind word := by
  cases hkind : kind.isEnumerated with
  | false => exact h.other word hkind
  | true =>
    cases hs with
    | enumerant _ he => rw [he, h.enumerant hkind he]
    | _ => cases hkind

theorem Operand.selected_within (h : g.Within g') {o : Operand} {before : Option ExtInstSet}
    (hs : Shows g opcode imported o.kind o.words o.fragment) :
    o.selected g' opcode before = o.selected g opcode before := by
  unfold selected
  split
  · next himport =>
    obtain ⟨rfl, hkind⟩ := himport
    rw [hkind] at hs
    obtain ⟨set, hset⟩ := hs.exists_extInstSet
    rw [hset, h.extInstSet hset]
  · rfl

/-! ## The operands of an instruction -/

namespace Format

variable {f : Format} {os : List Operand}

/-- **The fixed positions** of an instruction that is read hold the same enumerants for both
grammars. -/
theorem Fits.holds_iff (h : g.Within g') (hfits : f.Fits g imported os) {j : Nat}
    {e : Enumerant} :
    f.Holds g' (os.map words) j e ↔ f.Holds g (os.map words) j e := by
  have heq : ∀ kind word more, f.fixed[j]? = some kind →
      (os.map words)[j]? = some (word :: more) →
      g'.enumerant kind word = g.enumerant kind word := by
    intro kind word more hkind hsegment
    obtain ⟨o, ho, hwords⟩ := Option.map_eq_some_iff.mp (List.getElem?_map.symm.trans hsegment)
    obtain ⟨hkindAt, hshows⟩ := hfits j o ho
    rw [(KindAt.fixed hkind).unique hkindAt]
    rw [hwords] at hshows
    exact hshows.enumerant_eq h
  constructor
  · rintro ⟨kind, word, more, hkind, hsegment, he, hne⟩
    rw [heq kind word more hkind hsegment] at he
    exact ⟨kind, word, more, hkind, hsegment, he, hne⟩
  · rintro ⟨kind, word, more, hkind, hsegment, he, hne⟩
    rw [← heq kind word more hkind hsegment] at he
    exact ⟨kind, word, more, hkind, hsegment, he, hne⟩

theorem Fits.within (h : g.Within g') (hfits : f.Fits g imported os) :
    f.Fits g' imported os := fun i o ho =>
  ⟨(hfits i o ho).1.congr fun _ _ => hfits.holds_iff h, (hfits i o ho).2.within h⟩

end Format

/-! ## Instructions -/

namespace Instruction

variable {i : Instruction} {own : List Word}

/-- **An instruction** that is written for one grammar is written for a larger one. -/
theorem Written.within (h : g.Within g') (hi : Written g imported i own) :
    Written g' imported i own := by
  cases hi with
  | intro position hf hleast hcount hos =>
    exact .intro position (h.opcode hf) hleast hcount (hos.within h)

theorem Written.selected_within (h : g.Within g') (hi : Written g imported i own) :
    i.selected g' imported = i.selected g imported := by
  cases hi with
  | intro _ _ _ _ hos =>
    refine List.foldl_ext _ _ _ fun before o ho => ?_
    obtain ⟨n, hn⟩ := List.mem_iff_getElem?.mp ho
    exact Operand.selected_within h (hos n o hn).2

end Instruction

end

/-! ## Runs -/

namespace Cursor

/-- **One read** that gives an instruction gives it with a larger grammar. -/
theorem next_within (h : g.Within g') {c c' : Cursor} {i : Instruction}
    (hnext : c.next g = some (.ok i, c')) : c.next g' = some (.ok i, c') := by
  obtain ⟨hlive, own, rest, hrest, hi, hposition, rfl⟩ := next_eq_ok_iff.mp hnext
  refine next_eq_ok_iff.mpr ⟨hlive, own, rest, hrest, hi.within h, hposition, ?_⟩
  rw [hi.selected_within h]

theorem Reads.within (h : g.Within g') {c c' : Cursor} {is : List Instruction}
    (hreads : Reads g c is c') : Reads g' c is c' := by
  induction hreads with
  | refl c => exact .refl c
  | cons hnext _ ih => exact .cons (next_within h hnext) ih

end Cursor

namespace Listing

variable {σ : Type} {p : Palette} {emit : σ → String → σ × Option Error}

/-- Lines that come to their end are the same with a larger grammar. -/
theorem lines_within (h : g.Within g') (out : σ) (log : Log) (c : Cursor)
    (hend : (lines g p emit out log c).failure = none) :
    lines g' p emit out log c = lines g p emit out log c := by
  rw [lines_eq] at hend
  rw [lines_eq, lines_eq (g := g)]
  rcases hnext : c.next g with _ | ⟨d | i, c'⟩
  · rw [Cursor.next_eq_none_iff.mpr (Cursor.next_eq_none_iff.mp hnext)]
  · rw [hnext] at hend
    contradiction
  · rw [hnext] at hend
    rw [Cursor.next_within h hnext]
    dsimp only at hend ⊢
    rcases hemit : emit out (i.line p) with ⟨out', _ | e⟩
    · rw [hemit] at hend
      exact lines_within h out' _ c' hend
    · rfl
termination_by c.measure
decreasing_by exact Cursor.measure_next hnext

/-- **A listing** that comes to its end is the same with a larger grammar, if both have the same
name for the generator. -/
theorem run_within (h : g.Within g') {words : List Word}
    (hgenerator : ∀ m, (Module.ofWords words).outcome = .ok m →
      g'.generator m.header.generator = g.generator m.header.generator) (out : σ)
    (hend : (run g p emit out words).failure = none) :
    run g' p emit out words = run g p emit out words := by
  unfold run at hend ⊢
  dsimp only at hend ⊢
  rcases hm : (Module.ofWords words).outcome with d | m
  · rfl
  · have hcomment : m.header.comment g' p = m.header.comment g p := by
      rw [Header.comment, Header.comment, hgenerator m hm]
    rw [hm] at hend
    dsimp only at hend ⊢
    rw [hcomment]
    rcases hemit : emit out (m.header.comment g p) with ⟨out', _ | e⟩
    · rw [hemit] at hend
      exact lines_within h out' _ _ hend
    · rfl

end Listing

/-- **A larger grammar keeps what can be read.** Every instruction that is read from a module is
read at the same place among its items, whatever else a larger grammar reads behind the first that
the smaller one cannot. If the module can be listed and the name of its generator is the same, its
listing is the same, as a string and in any sink. -/
theorem larger_grammar_agrees {g g' : Grammar} (h : g.Within g') (p : Palette)
    (words : List Word) :
    (∀ m, (Module.ofWords words).outcome = .ok m → ∀ (n : Nat) (i : Instruction),
      ((Cursor.first m).items g)[n]? = some (.ok i) →
        ((Cursor.first m).items g')[n]? = some (.ok i)) ∧
    ((∀ m, (Module.ofWords words).outcome = .ok m →
      g'.generator m.header.generator = g.generator m.header.generator) →
        (∀ text, (disassemble g p words).outcome = .ok text →
          (disassemble g' p words).outcome = .ok text) ∧
        ∀ sink, (write g p words sink).failure = none →
          write g' p words sink = write g p words sink) := by
  refine ⟨fun m hm n i hi => ?_, fun hgenerator => ⟨fun text htext => ?_, fun sink hsink => ?_⟩⟩
  · obtain ⟨is, c, failure, hreads, hstops⟩ := Cursor.exists_run (g := g) (Cursor.first m)
    rw [hreads.items_eq, hstops.items_eq] at hi
    rw [(hreads.within h).items_eq]
    have hlt : n < (is.map (Except.ok : Instruction → Item)).length := by
      by_contra hge
      rw [List.getElem?_append_right (Nat.le_of_not_lt hge)] at hi
      have hmem := List.mem_of_getElem? hi
      simp at hmem
    rw [List.getElem?_append_left hlt] at hi ⊢
    exact hi
  · unfold disassemble at htext ⊢
    dsimp only at htext ⊢
    rcases hfailure : (Listing.run g p (fun text piece => (text ++ piece, none)) ""
      words).failure with _ | e
    · rw [Listing.run_within h hgenerator "" hfailure]
      exact htext
    · rw [hfailure] at htext
      contradiction
  · exact Listing.run_within h hgenerator sink hsink

/-- A module of two loads, the second with a memory access that the core grammar does not know and
that brings an id with it: the first load is read with either grammar, and so is the module that
ends behind it. -/
theorem larger_grammar_agrees_memory_access :
    let g' := ofRows { enumerants := [(.memoryAccess, ⟨8, "MakePointerAvailable", [.id]⟩)] } .core
    let words := [magicNumber, 0x00010000, 0, 6, 0, 0x0006003D, 1, 2, 3, 2, 4,
      0x0006003D, 1, 5, 3, 8, 4]
    core.Within g' ∧
      (∃ m i d, (Module.ofWords words).outcome = .ok m ∧
        (Cursor.first m).items .core = [.ok i, .error d] ∧
        ((Cursor.first m).items g')[0]? = some (.ok i)) ∧
      ∃ text, (disassemble .core .ansi (words.take 11)).outcome = .ok text ∧
        (disassemble g' .ansi (words.take 11)).outcome = .ok text := by
  intro g' words
  have hwithin : core.Within g' := by
    refine within_ofRows ?_ ?_ ?_ ?_
    · exact fun row hrow => absurd hrow List.not_mem_nil
    · intro row hrow
      obtain rfl := List.mem_singleton.mp hrow
      decide
    · exact fun row hrow => absurd hrow List.not_mem_nil
    · exact fun row hrow => absurd hrow List.not_mem_nil
  have hm : (Module.ofWords words).outcome = .ok ⟨.little, .ofBound 6, words.drop 5⟩ := rfl
  let load : Instruction := ⟨.opLoad, 5, 6, some 1, [⟨.id, 1, [], ⟨some .id, "%1"⟩⟩,
    ⟨.resultId, 2, [], ⟨some .resultId, "%2"⟩⟩, ⟨.id, 3, [], ⟨some .id, "%3"⟩⟩,
    ⟨.memoryAccess, 2, [], ⟨none, "Aligned"⟩⟩, ⟨.literal, 4, [], ⟨some .literal, "4"⟩⟩]⟩
  have hitems : (Cursor.first ⟨.little, .ofBound 6, words.drop 5⟩).items .core =
      [.ok load, .error ⟨15, some 8, .unknownEnumerant .memoryAccess 8⟩] := by decide +kernel
  have hload : (Cursor.first ⟨.little, .ofBound 6, (words.take 11).drop 5⟩).items .core =
      [load].map .ok := by decide +kernel
  have hfirst : ((Cursor.first ⟨.little, .ofBound 6, words.drop 5⟩).items .core)[0]? =
      some (.ok load) := by
    rw [hitems]
    rfl
  have hcut : (Module.ofWords (words.take 11)).outcome =
      .ok ⟨.little, .ofBound 6, (words.take 11).drop 5⟩ := rfl
  have htext := disassemble_outcome_ok (p := .ansi) hcut hload
  have hgenerator : ∀ m, (Module.ofWords (words.take 11)).outcome = .ok m →
      g'.generator m.header.generator = core.generator m.header.generator := fun _ _ => rfl
  refine ⟨hwithin, ⟨_, load, _, hm, hitems, ?_⟩, _, htext, ?_⟩
  · exact (larger_grammar_agrees hwithin .ansi words).1 _ hm 0 load hfirst
  · exact ((larger_grammar_agrees hwithin .ansi (words.take 11)).2 hgenerator).1 _ htext

end Spirv

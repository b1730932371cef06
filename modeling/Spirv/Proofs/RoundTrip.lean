import Mathlib.Data.List.InsertIdx
import Spirv.Proofs.Builder
import Spirv.Proofs.Module

/-!
# Building modules and reading them back

- `Source`: an instruction that is to be written; `Source.build` builds it.
- `Source.Encodable`: its arguments are of the kinds at their positions, and there is room for them.
- `Source.Operands`: the operands that its arguments are read as.
- `Source.ReadAs`: the instruction that is read has the opcode, the length, the place and the values
  of the one that was built.
- `read_build`: a module that is built of encodable instructions is read back without a failure.
-/

namespace Spirv

open Operand

/-! ## Arguments -/

namespace Argument

variable {g : Grammar} {opcode : Opcode} {imported : Option ExtInstSet}

/-- `Fits g opcode imported kind a fragment`: the argument `a` has the shape of the given kind in an
instruction of `opcode` that is read while the set `imported` is selected, and `fragment` is its
text. A string has no nul, and one that is imported names a set. -/
inductive Fits (g : Grammar) (opcode : Opcode) (imported : Option ExtInstSet) :
    OperandKind → Argument → Fragment → Prop where
  | word {kind : OperandKind} {w : Word} {fragment : Fragment} (hkind : kind ≠ .literalString)
      (h : Shows g opcode imported kind [w] fragment) :
      Fits g opcode imported kind (.word w) fragment
  | string {s : String} (hnul : '\x00' ∉ s.toList)
      (himport : opcode = .opExtInstImport → ∃ set, g.extInstSet s = some set) :
      Fits g opcode imported .literalString (.string s) ⟨some .string, s⟩

/-- The words of an argument show what the argument is. -/
theorem Fits.shows {kind : OperandKind} {a : Argument} {fragment : Fragment}
    (h : Fits g opcode imported kind a fragment) :
    Shows g opcode imported kind a.words fragment := by
  cases h with
  | word _ h => exact h
  | @string s hnul himport =>
    have hstring : Shows g opcode imported .literalString (Packed.words s)
        ⟨some .string, Packed.text (Packed.words s)⟩ :=
      .string (Packed.isString_words hnul) (by rwa [Packed.text_words hnul])
    rwa [Packed.text_words hnul] at hstring

/-- The set that is selected behind an argument. -/
def selected (g : Grammar) (opcode : Opcode) (imported : Option ExtInstSet) :
    Argument → Option ExtInstSet
  | string s => if opcode = .opExtInstImport then g.extInstSet s else imported
  | _ => imported

/-- An operand selects what its argument selects. -/
theorem Fits.selected_eq {before : Option ExtInstSet} {a : Argument} {o : Operand}
    (h : Fits g opcode before o.kind a o.fragment) :
    o.selected g opcode imported = a.selected g opcode imported := by
  obtain ⟨kind, first, more, fragment⟩ := o
  cases h with
  | word hkind => exact if_neg fun h => hkind h.2
  | string => simp [Operand.selected, selected]

end Argument

/-! ## Builders -/

namespace Builder

/-- Adds an argument for which there must be room. -/
def extend (b : Builder) (a : Argument) : Except Error Builder :=
  match b.append a with
  | (b', none) => .ok b'
  | (_, some e) => .error e

theorem extend_of_lt {b : Builder} {a : Argument}
    (h : b.body.size + a.words.length < maxWordCount) :
    ∃ b', b.extend a = .ok b' ∧ b'.opcode = b.opcode ∧
      b'.body.toList = b.body.toList ++ a.words := by
  refine ⟨(b.append a).1, ?_, ?_, ?_⟩ <;> simp [extend, append, h]

/-- Arguments can be added as long as there is room for all of them. -/
theorem foldlM_extend {b : Builder} {as : List Argument}
    (h : b.body.size + (as.flatMap Argument.words).length < maxWordCount) :
    ∃ b', as.foldlM extend b = .ok b' ∧ b'.opcode = b.opcode ∧
      b'.body.toList = b.body.toList ++ as.flatMap Argument.words := by
  induction as generalizing b with
  | nil => exact ⟨b, rfl, rfl, (List.append_nil _).symm⟩
  | cons a as ih =>
    rw [List.flatMap_cons, List.length_append] at h
    obtain ⟨b₁, hb₁, hopcode₁, hbody₁⟩ := extend_of_lt (b := b) (a := a) (by omega)
    have hsize : b₁.body.size = b.body.size + a.words.length := by
      rw [← Array.length_toList, hbody₁, List.length_append, Array.length_toList]
    obtain ⟨b₂, hb₂, hopcode₂, hbody₂⟩ := ih (b := b₁) (by omega)
    refine ⟨b₂, ?_, hopcode₂.trans hopcode₁, ?_⟩
    · rw [List.foldlM_cons, hb₁]
      exact hb₂
    · rw [hbody₂, hbody₁, List.flatMap_cons, List.append_assoc]

end Builder

/-! ## One instruction -/

/-- An instruction that is to be written: its opcode and what it holds. -/
structure Source where
  opcode : Opcode
  arguments : List Argument

namespace Source

/-- Builds an instruction argument by argument. -/
def build (s : Source) : Except Error Builder :=
  s.arguments.foldlM Builder.extend { opcode := s.opcode }

/-- The words of the arguments. -/
def body (s : Source) : List Word := s.arguments.flatMap Argument.words

/-- The format of the opcode. -/
def format (s : Source) : Format := Grammar.coreFormat s.opcode

/-- The set that is selected behind an instruction. -/
def selected (imported : Option ExtInstSet) (s : Source) : Option ExtInstSet :=
  s.arguments.foldl (Argument.selected .core s.opcode) imported

/-- The instruction can be written where the set `imported` is selected: each argument is of the
kind at its position, the words are no fewer than the opcode asks for and no more than can be
counted. The arguments are shown as `fragments`. -/
structure Encodable (imported : Option ExtInstSet) (s : Source) (fragments : List Fragment) :
    Prop where
  least : s.format.minWordCount ≤ s.body.length + 1
  most : s.body.length + 1 ≤ maxWordCount
  length : fragments.length = s.arguments.length
  fits : ∀ n a, s.arguments[n]? = some a → ∃ kind fragment, fragments[n]? = some fragment ∧
    s.format.KindAt .core (s.arguments.map Argument.words) n kind ∧
    a.Fits .core s.opcode imported kind fragment

/-- The instruction `i`, which has been read at `position`, is the one that was built as `b`. -/
structure ReadAs (s : Source) (b : Builder) (position : Nat) (fragments : List Fragment)
    (i : Instruction) : Prop where
  opcode : i.opcode = s.opcode
  position : i.position = position
  wordCount : i.wordCount = b.words.length
  result : i.result.map (·.fragment) = s.format.resultIndex.bind (fragments[·]?)
  arguments : i.arguments.map (·.fragment) =
    match s.format.resultIndex with
    | none => fragments
    | some index => fragments.eraseIdx index

variable {imported : Option ExtInstSet} {s : Source} {fragments : List Fragment}

theorem Encodable.exists_build (h : s.Encodable imported fragments) :
    ∃ b, s.build = .ok b ∧ b.opcode = s.opcode ∧ b.body.toList = s.body := by
  have hroom : (#[] : Array Word).size + s.body.length < maxWordCount := by
    have := h.most
    rw [Array.size_empty]
    omega
  exact Builder.foldlM_extend (b := { opcode := s.opcode }) hroom

/-- The operands `os` are those that the arguments of the instruction are read as. -/
structure Operands (imported : Option ExtInstSet) (s : Source) (fragments : List Fragment)
    (os : List Operand) : Prop where
  length : os.length = s.arguments.length
  each : ∀ n o, os[n]? = some o → ∃ a, s.arguments[n]? = some a ∧ a.words = o.words ∧
    fragments[n]? = some o.fragment ∧
    s.format.KindAt .core (s.arguments.map Argument.words) n o.kind ∧
    a.Fits .core s.opcode imported o.kind o.fragment

theorem Encodable.exists_operands (h : s.Encodable imported fragments) :
    ∃ os, s.Operands imported fragments os := by
  obtain ⟨os, hos, heach⟩ := Instruction.exists_operands (s.arguments.map Argument.words)
    (fun n ws kind fragment => ∃ a, s.arguments[n]? = some a ∧ a.words = ws ∧
      fragments[n]? = some fragment ∧
      s.format.KindAt .core (s.arguments.map Argument.words) n kind ∧
      a.Fits .core s.opcode imported kind fragment)
    fun n ws hws => by
      rw [List.getElem?_map, Option.map_eq_some_iff] at hws
      obtain ⟨a, ha, rfl⟩ := hws
      obtain ⟨kind, fragment, hfragment, hkind, hfit⟩ := h.fits n a ha
      exact ⟨hfit.shows.ne_nil, kind, fragment, a, ha, rfl, hfragment, hkind, hfit⟩
  refine ⟨os, ?_, heach⟩
  rw [← List.length_map Operand.words, hos, List.length_map]

namespace Operands

variable {os : List Operand}

/-- Whatever agrees on each operand and its argument agrees on all of them. -/
theorem map_eq {α : Type} (h : s.Operands imported fragments os) {f : Operand → α}
    {k : Argument → α} (hfk : ∀ o a, a.words = o.words →
      a.Fits .core s.opcode imported o.kind o.fragment → f o = k a) :
    os.map f = s.arguments.map k := by
  refine List.ext_getElem? fun n => ?_
  rw [List.getElem?_map, List.getElem?_map]
  rcases ho : os[n]? with _ | o
  · rw [List.getElem?_eq_none_iff, h.length, ← List.getElem?_eq_none_iff] at ho
    rw [ho]
    rfl
  · obtain ⟨a, ha, hwords, -, -, hfit⟩ := h.each n o ho
    rw [ha]
    exact congrArg some (hfk o a hwords hfit)

theorem map_words (h : s.Operands imported fragments os) :
    os.map words = s.arguments.map Argument.words :=
  h.map_eq fun _ _ hwords _ => hwords.symm

theorem flatMap_words (h : s.Operands imported fragments os) : os.flatMap words = s.body := by
  rw [List.flatMap_def, h.map_words, body, List.flatMap_def]

theorem fits (h : s.Operands imported fragments os) : s.format.Fits .core imported os := by
  intro n o ho
  obtain ⟨a, -, hwords, -, hkind, hfit⟩ := h.each n o ho
  rw [h.map_words]
  exact ⟨hkind, hwords ▸ hfit.shows⟩

theorem map_fragment (h : s.Operands imported fragments os)
    (hlen : fragments.length = s.arguments.length) : os.map (·.fragment) = fragments := by
  refine List.ext_getElem? fun n => ?_
  rw [List.getElem?_map]
  rcases ho : os[n]? with _ | o
  · rw [List.getElem?_eq_none_iff, h.length, ← hlen, ← List.getElem?_eq_none_iff] at ho
    rw [ho]
    rfl
  · obtain ⟨-, -, -, hfragment, -⟩ := h.each n o ho
    exact hfragment.symm

/-- The operands select what the arguments select, whatever was selected before. -/
theorem foldl_selected (h : s.Operands imported fragments os) (before : Option ExtInstSet) :
    os.foldl (fun imported o => o.selected .core s.opcode imported) before =
      s.selected before := by
  have hselect : os.map (fun o before => o.selected .core s.opcode before) =
      s.arguments.map fun a before => a.selected .core s.opcode before :=
    h.map_eq fun _ _ _ hfit => funext fun _ => hfit.selected_eq
  have hfold := congrArg (List.foldl (fun imported select => select imported) before) hselect
  rwa [List.foldl_map, List.foldl_map] at hfold

end Operands

/-- **The words of an instruction that was built** are read as that instruction. -/
theorem Encodable.written (h : s.Encodable imported fragments) {b : Builder}
    (hopcode : b.opcode = s.opcode) (hbody : b.body.toList = s.body) (position : Nat) :
    ∃ i, Instruction.Written .core imported i b.words ∧
      i.selected .core imported = s.selected imported ∧ s.ReadAs b position fragments i := by
  obtain ⟨os, hos⟩ := h.exists_operands
  have hlen : b.words.length = s.body.length + 1 := by
    rw [Builder.length_words, Builder.wordCount, ← Array.length_toList, hbody]
  have hfragments := hos.map_fragment h.length
  have hwritten : Instruction.Written .core imported
      ⟨s.format.opcode, position, b.words.length, s.format.resultIndex, os⟩ b.words := by
    have hf : Grammar.core.opcode (Word.pack b.wordCount b.opcode.code).opcodeNumber =
        some s.format := by
      rw [Word.opcodeNumber_pack, hopcode, Grammar.core_opcode_code]
      rfl
    rw [← b.wordCount_first, Builder.words, hbody, ← hos.flatMap_words]
    refine .intro position hf ?_ ?_ hos.fits
    · rw [b.wordCount_first, hlen]
      exact h.least
    · rw [b.wordCount_first, hlen, hos.flatMap_words]
  refine ⟨_, hwritten, hos.foldl_selected imported, rfl, rfl, rfl, ?_, ?_⟩
  · show (s.format.resultIndex.bind (os[·]?)).map _ = _
    cases s.format.resultIndex with
    | none => rfl
    | some index => rw [← hfragments, Option.bind_some, Option.bind_some, List.getElem?_map]
  · show (match s.format.resultIndex with
      | none => os
      | some index => os.eraseIdx index).map _ = _
    cases s.format.resultIndex with
    | none => exact hfragments
    | some index =>
      rw [← hfragments]
      exact (List.eraseIdx_map _ os index).symm

/-! ## All instructions -/

/-- The set that is selected before the instruction at position `n`: the one that was imported
last. -/
def selectedBefore (imported : Option ExtInstSet) (sources : List Source) (n : Nat) :
    Option ExtInstSet :=
  (sources.take n).foldl selected imported

/-- Encodable instructions are built, and their words one after another are those of the
instructions that they are read as. -/
theorem exists_code (imported : Option ExtInstSet) (position : Nat) {sources : List Source}
    (shown : Nat → List Fragment)
    (h : ∀ (n : Nat) (s : Source), sources[n]? = some s →
      s.Encodable (selectedBefore imported sources n) (shown n)) :
    ∃ (builders : List Builder) (is : List Instruction), sources.mapM build = .ok builders ∧
      Code .core position imported is (builders.flatMap Builder.words) ∧
      is.length = sources.length ∧
      ∀ (n : Nat) (s : Source), sources[n]? = some s →
        ∃ b i, builders[n]? = some b ∧ is[n]? = some i ∧
          s.ReadAs b (position + ((builders.take n).flatMap Builder.words).length) (shown n)
            i := by
  induction sources generalizing imported position shown with
  | nil => exact ⟨[], [], rfl, .nil _ _, rfl, fun n s hs => by contradiction⟩
  | cons s sources ih =>
    have hs : s.Encodable imported (shown 0) := h 0 s rfl
    obtain ⟨b, hb, hopcode, hbody⟩ := hs.exists_build
    obtain ⟨i, hwritten, hselected, hread⟩ := hs.written hopcode hbody position
    obtain ⟨builders, is, hbuilders, hcode, hlen, hall⟩ :=
      ih (s.selected imported) (position + b.words.length) (fun n => shown (n + 1))
        fun n s' hs' => h (n + 1) s' hs'
    refine ⟨b :: builders, i :: is, ?_, ?_, congrArg (· + 1) hlen, ?_⟩
    · rw [List.mapM_cons, hb, hbuilders]
      rfl
    · rw [List.flatMap_cons]
      refine .cons hread.position hwritten ?_
      rwa [hselected]
    · intro n s' hs'
      cases n with
      | zero =>
        cases hs'
        exact ⟨b, i, rfl, rfl, hread⟩
      | succ n =>
        obtain ⟨b', i', hb', hi', hread'⟩ := hall n s' hs'
        refine ⟨b', i', hb', hi', ?_⟩
        rwa [List.take_succ_cons, List.flatMap_cons, List.length_append, ← Nat.add_assoc]

end Source

/-! ## Modules -/

/-- A new header and some words are a module in the order of the host. -/
theorem Module.ofWords_ofBound (bound : Word) (code : List Word) :
    (Module.ofWords ((Header.ofBound bound).words ++ code)).outcome =
      .ok ⟨.host, Header.ofBound bound, code⟩ :=
  rfl

/-- **Reading a module undoes building it.** Encodable instructions are built without a failure.
Behind a new header, their words are read as a module with that header and exactly these
instructions, each with its opcode, its length, its place and its values. -/
theorem read_build (bound : Word) (sources : List Source) (shown : Nat → List Fragment)
    (h : ∀ (n : Nat) (s : Source), sources[n]? = some s →
      s.Encodable (Source.selectedBefore none sources n) (shown n))
    (buffer : List Word) (hbuffer : buffer.length = Header.size) :
    ∃ (header : List Word) (builders : List Builder) (m : Module) (is : List Instruction),
      Header.write buffer bound = .ok header ∧
      sources.mapM Source.build = .ok builders ∧
      (Module.ofWords (header ++ builders.flatMap Builder.words)).outcome = .ok m ∧
      m.header = ⟨magicNumber, 0x00010000, 0, bound, 0⟩ ∧
      (Cursor.first m).items .core = is.map .ok ∧ is.length = sources.length ∧
      ∀ (n : Nat) (s : Source), sources[n]? = some s →
        ∃ b i, builders[n]? = some b ∧ is[n]? = some i ∧
          s.ReadAs b (Header.size + ((builders.take n).flatMap Builder.words).length) (shown n)
            i := by
  obtain ⟨builders, is, hbuilders, hcode, hlen, hall⟩ :=
    Source.exists_code none Header.size shown h
  have hwrite : Header.write buffer bound = .ok (Header.ofBound bound).words := by
    rw [Header.write, if_neg (by omega), ← hbuffer, List.drop_length, List.append_nil]
  have hfix : (builders.flatMap Builder.words).map ByteOrder.host.fix =
      builders.flatMap Builder.words := List.map_id _
  exact ⟨_, builders, _, is, hwrite, hbuilders, Module.ofWords_ofBound bound _, rfl,
    (Cursor.items_eq_map_ok_iff rfl).mpr (hfix.symm ▸ hcode), hlen, hall⟩

/-- An import and an extended instruction of the set that it selects, which is shown by its name. -/
theorem read_build_extended_instruction :
    let sources : List Source := [
      ⟨.opExtInstImport, [.word 1, .string "GLSL.std.450"]⟩,
      ⟨.opExtInst, [.word 2, .word 3, .word 1, .word 31, .word 4]⟩]
    ∃ (header : List Word) (builders : List Builder) (m : Module) (i j : Instruction),
      Header.write [7, 7, 7, 7, 7] 5 = .ok header ∧ sources.mapM Source.build = .ok builders ∧
      (Module.ofWords (header ++ builders.flatMap Builder.words)).outcome = .ok m ∧
      (Cursor.first m).items .core = [i, j].map .ok ∧
      (i.opcode = .opExtInstImport ∧ i.position = 5 ∧ i.wordCount = 6 ∧
        i.result.map (·.fragment) = some ⟨some .resultId, "%1"⟩ ∧
        i.arguments.map (·.fragment) = [⟨some .string, "GLSL.std.450"⟩]) ∧
      j.opcode = .opExtInst ∧ j.position = 11 ∧ j.wordCount = 6 ∧
        j.result.map (·.fragment) = some ⟨some .resultId, "%3"⟩ ∧
        j.arguments.map (·.fragment) =
          [⟨some .id, "%2"⟩, ⟨some .id, "%1"⟩, ⟨some .literal, "Sqrt"⟩, ⟨some .id, "%4"⟩] := by
  intro sources
  let shown : Nat → List Fragment
    | 0 => [⟨some .resultId, "%" ++ (1 : Word).decimal⟩, ⟨some .string, "GLSL.std.450"⟩]
    | _ => [⟨some .id, "%" ++ (2 : Word).decimal⟩, ⟨some .resultId, "%" ++ (3 : Word).decimal⟩,
        ⟨some .id, "%" ++ (1 : Word).decimal⟩, ⟨some .literal, "Sqrt"⟩,
        ⟨some .id, "%" ++ (4 : Word).decimal⟩]
  have hset : Grammar.core.extInstSet "GLSL.std.450" = some .glslStd450 := by decide
  have hname : Grammar.core.extInst .glslStd450 31 = some "Sqrt" := by decide +kernel
  have hencodable : ∀ (n : Nat) (s : Source), sources[n]? = some s →
      s.Encodable (Source.selectedBefore none sources n) (shown n) := by
    intro n s hs
    match n, hs with
    | 0, rfl =>
      refine ⟨by decide +kernel, by decide +kernel, rfl, fun n a ha => ?_⟩
      match n, ha with
      | 0, rfl => exact ⟨.resultId, _, rfl, .fixed rfl, .word (by decide) (.resultId 1)⟩
      | 1, rfl => exact ⟨.literalString, _, rfl, .fixed rfl, .string (by decide) fun _ => ⟨_, hset⟩⟩
    | 1, rfl =>
      refine ⟨by decide +kernel, by decide +kernel, rfl, fun n a ha => ?_⟩
      match n, ha with
      | 0, rfl => exact ⟨.id, _, rfl, .fixed rfl, .word (by decide) (.id 2)⟩
      | 1, rfl => exact ⟨.resultId, _, rfl, .fixed rfl, .word (by decide) (.resultId 3)⟩
      | 2, rfl => exact ⟨.id, _, rfl, .fixed rfl, .word (by decide) (.id 1)⟩
      | 3, rfl =>
        exact ⟨.literalNumber, _, rfl, .fixed rfl, .word (by decide) (.extInst rfl hset hname)⟩
      | 4, rfl => exact ⟨.id, _, rfl, .fixed rfl, .word (by decide) (.id 4)⟩
  obtain ⟨header, builders, m, is, hwrite, hbuild, hm, -, his, hlen, hread⟩ :=
    read_build 5 sources shown hencodable [7, 7, 7, 7, 7] rfl
  obtain ⟨i, j, rfl⟩ := List.length_eq_two.mp hlen
  have hwords : builders.map Builder.words =
      [Word.pack 6 11 :: 1 :: Packed.words "GLSL.std.450", [Word.pack 6 12, 2, 3, 1, 31, 4]] := by
    have hmap := congrArg (Except.map (List.map Builder.words)) hbuild
    exact Except.ok.inj (hmap.symm.trans (by decide +kernel))
  simp only [List.flatMap_def, List.map_take, hwords] at hread
  obtain ⟨b, _, hb, hi, hfirst⟩ := hread 0 _ rfl
  obtain ⟨b', _, hb', hj, hsecond⟩ := hread 1 _ rfl
  cases hi
  cases hj
  have hlength : ∀ (n : Nat) (b : Builder), builders[n]? = some b →
      (builders.map Builder.words)[n]? = some b.words := by
    intro n b hb
    rw [List.getElem?_map, hb, Option.map_some]
  have hsix : b.words.length = 6 := by
    have hbuilt := hlength 0 b hb
    rw [hwords] at hbuilt
    rw [← Option.some.inj hbuilt]
    decide +kernel
  have hsix' : b'.words.length = 6 := by
    have hbuilt := hlength 1 b' hb'
    rw [hwords] at hbuilt
    rw [← Option.some.inj hbuilt]
    rfl
  exact ⟨header, builders, m, i, j, hwrite, hbuild, hm, his,
    ⟨hfirst.opcode, hfirst.position, hfirst.wordCount.trans hsix, hfirst.result,
      hfirst.arguments⟩,
    hsecond.opcode, hsecond.position, hsecond.wordCount.trans hsix', hsecond.result,
      hsecond.arguments⟩

end Spirv

import Mathlib.Data.List.Perm.Basic
import Spirv.Proofs.Import
import Spirv.Proofs.Listing

/-!
# The lines of a listing

Where the lines of a plain listing end.

- `newlines`: the number of newlines of a text, each of which ends a line of it; `linesOf` is what
  stands between them.
- `HasLines`: a text that consists of given lines, each of which is ended by a newline.
- `Instruction.newlines_render`: the newlines of a rendered instruction of the core grammar are
  those of its strings. Names and numbers have none.
- `plain_listing_lines`: a listing consists of the lines of its header block and of those of each
  instruction. An instruction has one line exactly if there is no newline in its strings, as the
  strings are written out as they are (`plain_listing_lines_newline_name`).
-/

namespace Spirv

open Cursor

/-! ## Lines of a text -/

/-- The number of newlines of a text. -/
def newlines (s : String) : Nat := s.toList.count '\n'

@[simp] theorem newlines_append (s t : String) : newlines (s ++ t) = newlines s + newlines t := by
  rw [newlines, String.toList_append, List.count_append]
  rfl

theorem newlines_join (ss : List String) :
    newlines (String.join ss) = (ss.map newlines).sum := by
  induction ss with
  | nil => rfl
  | cons s ss ih => rw [String.join_cons, newlines_append, ih, List.map_cons, List.sum_cons]

theorem newlines_join_lines (ss : List String) :
    newlines (String.join (ss.map (· ++ "\n"))) = (ss.map newlines).sum + ss.length := by
  induction ss with
  | nil => rfl
  | cons s ss ih =>
    have hone : newlines "\n" = 1 := rfl
    rw [List.map_cons, String.join_cons, newlines_append, newlines_append, ih, hone, List.map_cons,
      List.sum_cons, List.length_cons]
    omega

theorem newlines_eq_zero_iff {s : String} : newlines s = 0 ↔ '\n' ∉ s.toList :=
  List.count_eq_zero

/-- What stands before, between and behind the newlines of a text. -/
def linesOf (s : String) : List String := (s.toList.splitOn '\n').map String.ofList

/-- `HasLines text lines`: the text consists of these lines, each of which is ended by a newline.
Nothing stands behind the last newline. -/
def HasLines (text : String) (lines : List String) : Prop := linesOf text = lines ++ [""]

instance (text : String) (lines : List String) : Decidable (HasLines text lines) :=
  inferInstanceAs (Decidable (_ = _))

theorem length_linesOf (s : String) : (linesOf s).length = newlines s + 1 := by
  rw [linesOf, List.length_map, newlines]
  induction s.toList with
  | nil => rfl
  | cons c cs ih =>
    rw [List.splitOn_cons_eq_if_modifyHead, List.count_cons]
    split
    · rw [List.length_cons, ih]
    · rw [List.length_modifyHead, ih]

/-- Without a newline all is one line. -/
theorem linesOf_of_newlines_eq_zero {s : String} (h : newlines s = 0) : linesOf s = [s] := by
  rw [linesOf, List.splitOn_eq_singleton (newlines_eq_zero_iff.mp h), List.map_singleton,
    String.ofList_toList]

theorem linesOf_line_append (s t : String) :
    linesOf (s ++ "\n" ++ t) = linesOf s ++ linesOf t := by
  have hsplit : (s ++ "\n" ++ t).toList = s.toList ++ '\n' :: t.toList := by
    rw [String.toList_append, String.toList_append, List.append_assoc]
    rfl
  rw [linesOf, hsplit, List.splitOn_append_cons_self, List.map_append]
  rfl

/-- **Texts that are ended by newlines** and follow one another have the lines of each of them. -/
theorem hasLines_join (ss : List String) :
    HasLines (String.join (ss.map (· ++ "\n"))) (ss.flatMap linesOf) := by
  induction ss with
  | nil => rfl
  | cons s ss ih =>
    rw [HasLines, List.map_cons, String.join_cons, linesOf_line_append, ih, List.flatMap_cons,
      List.append_assoc]

example : HasLines "one\n\ntwo\n" ["one", "", "two"] := by decide

example : ¬ HasLines "one\ntwo" ["one", "two"] := by decide

/-- A text has as many lines as newlines. -/
theorem HasLines.length_eq {text : String} {lines : List String} (h : HasLines text lines) :
    lines.length = newlines text := by
  have hlen := congrArg List.length h
  rw [length_linesOf, List.length_append, List.length_singleton] at hlen
  omega

theorem flatMap_linesOf_of_newlines_eq_zero {ss : List String} (h : ∀ s ∈ ss, newlines s = 0) :
    ss.flatMap linesOf = ss := by
  induction ss with
  | nil => rfl
  | cons s ss ih =>
    rw [List.forall_mem_cons] at h
    rw [List.flatMap_cons, linesOf_of_newlines_eq_zero h.1, ih h.2, List.singleton_append]

/-! ## Names and numbers -/

theorem newlines_decimal (w : Word) : newlines w.decimal = 0 := by
  rw [newlines_eq_zero_iff]
  intro h
  have hdigit : '\n' ∈ Nat.toDigits 10 w.toNat := by
    rwa [← Nat.toList_repr]
  exact absurd (Nat.isDigit_of_mem_toDigits (by decide) (by decide) hdigit) (by decide)

/-- A newline is a byte of its own. The bytes of a literal are at hand when the kernel runs through
the tables of names, and its characters are not. -/
theorem newlines_eq_zero_of_not_mem_encode {s : String} (h : 10 ∉ Utf8.encode s) :
    newlines s = 0 := by
  rw [newlines_eq_zero_iff]
  intro hmem
  rw [Utf8.encode_eq_flatMap, List.mem_flatMap] at h
  exact h ⟨'\n', hmem, by decide⟩

theorem newlines_mnemonic (o : Opcode) : newlines o.mnemonic = 0 := by
  have hall : ∀ o : Opcode, 10 ∉ Utf8.encode o.name := by decide +kernel
  have hname := newlines_eq_zero_of_not_mem_encode (hall o)
  rw [Opcode.mnemonic, newlines_append, hname]
  rfl

theorem newlines_enumerant {kind : OperandKind} {w : Word} {e : Enumerant}
    (h : Grammar.core.enumerant kind w = some e) : newlines e.name = 0 := by
  have hall : ∀ e ∈ kind.enumerants, 10 ∉ Utf8.encode e.name := by
    cases kind <;> decide +kernel
  exact newlines_eq_zero_of_not_mem_encode (hall e (List.mem_of_find?_eq_some h))

theorem newlines_extInst {set : ExtInstSet} {w : Word} {name : String}
    (h : Grammar.core.extInst set w = some name) : newlines name = 0 := by
  have hall : ∀ row ∈ set.instructions, 10 ∉ Utf8.encode row.2 := by
    cases set <;> decide +kernel
  exact newlines_eq_zero_of_not_mem_encode (hall _ (Grammar.mem_of_core_extInst h))

theorem newlines_generatorName (w : Word) : newlines (Grammar.generatorName w) = 0 := by
  unfold Grammar.generatorName
  split <;> rfl

/-! ## Instructions -/

namespace Operand

/-- Only a string can bring a newline with it. -/
theorem Shows.newlines_eq_zero {opcode : Opcode} {imported : Option ExtInstSet}
    {kind : OperandKind} {ws : List Word} {fragment : Fragment}
    (h : Shows .core opcode imported kind ws fragment) (hkind : kind ≠ .literalString) :
    newlines fragment.text = 0 := by
  cases h with
  | id w | resultId w => rw [newlines_append, newlines_decimal]; rfl
  | literal w => exact newlines_decimal w
  | number w => exact newlines_decimal w
  | extInst _ _ hname => exact newlines_extInst hname
  | enumerant _ he => exact newlines_enumerant he
  | string => contradiction

end Operand

theorem Fragment.newlines_render (f : Fragment) : newlines (f.render .plain) = newlines f.text := by
  unfold Fragment.render
  split
  · rfl
  · rw [newlines_append, newlines_append, Palette.decorate_plain]
    exact Nat.zero_add _
  · rw [Palette.decorate_plain]

namespace Instruction

/-- The result id and the arguments are all the operands. -/
theorem result_append_arguments_perm (i : Instruction) :
    (i.result.toList ++ i.arguments).Perm i.operands := by
  unfold result arguments
  cases i.resultIndex with
  | none => exact .refl _
  | some n =>
    dsimp only
    rw [Option.bind_some]
    by_cases hn : n < i.operands.length
    · rw [List.getElem?_eq_getElem hn]
      exact List.getElem_cons_eraseIdx_perm hn
    · rw [List.getElem?_eq_none (Nat.le_of_not_lt hn),
        List.eraseIdx_of_length_le (Nat.le_of_not_lt hn)]
      exact .refl _

theorem newlines_arguments (os : List Operand) :
    newlines (String.join (os.map fun o => " " ++ o.fragment.render .plain)) =
      (os.map fun o => newlines o.fragment.text).sum := by
  rw [newlines_join, List.map_map]
  refine congrArg List.sum (List.map_congr_left fun o _ => ?_)
  show newlines (" " ++ o.fragment.render .plain) = _
  rw [newlines_append, Fragment.newlines_render]
  exact Nat.zero_add _

/-- A plain line has the newlines of the operands. -/
theorem newlines_render_eq_sum (i : Instruction) :
    newlines (i.render .plain) = (i.operands.map fun o => newlines o.fragment.text).sum := by
  have hparts : newlines (i.render .plain) =
      (i.result.toList.map fun o => newlines o.fragment.text).sum +
        (i.arguments.map fun o => newlines o.fragment.text).sum := by
    unfold render
    rw [newlines_append, newlines_append, newlines_mnemonic, Nat.add_zero, newlines_arguments]
    cases i.result with
    | none => rfl
    | some o =>
      dsimp only
      rw [newlines_append, Fragment.newlines_render]
      rfl
  calc newlines (i.render .plain)
      = ((i.result.toList ++ i.arguments).map fun o => newlines o.fragment.text).sum := by
          rw [hparts, List.map_append, List.sum_append]
    _ = (i.operands.map fun o => newlines o.fragment.text).sum :=
          (i.result_append_arguments_perm.map _).sum_nat

/-- **The newlines of an instruction** of the core grammar are those of its strings. -/
theorem newlines_render {i : Instruction} {imported : Option ExtInstSet} {ws : List Word}
    (h : Written .core imported i ws) :
    newlines (i.render .plain) = (i.strings.map newlines).sum := by
  have hshows : ∀ o ∈ i.operands, o.kind ≠ .literalString → newlines o.fragment.text = 0 := by
    intro o ho hkind
    obtain ⟨n, hn⟩ := List.mem_iff_getElem?.mp ho
    exact (h.fits_coreFormat.1 n o hn).2.newlines_eq_zero hkind
  rw [newlines_render_eq_sum, strings]
  generalize i.operands = os at hshows
  induction os with
  | nil => rfl
  | cons o os ih =>
    rw [List.forall_mem_cons] at hshows
    rw [List.map_cons, List.sum_cons, ih hshows.2, List.filter_cons]
    by_cases hkind : o.kind = .literalString
    · rw [if_pos (beq_iff_eq.mpr hkind)]
      rfl
    · rw [if_neg fun hstring => hkind (beq_iff_eq.mp hstring), hshows.1 hkind, Nat.zero_add]

end Instruction

/-! ## Listings -/

/-- The lines of the block that describes a header. -/
def Header.commentLines (g : Grammar) (h : Header) : List String :=
  ["; SPIR-V", "; Version: " ++ h.version.decimal, "; Generator: " ++ g.generator h.generator,
    "; Bound: " ++ h.bound.decimal, "; Schema: " ++ h.schema.decimal]

theorem Header.comment_plain (g : Grammar) (h : Header) :
    h.comment g .plain = String.join ((h.commentLines g).map (· ++ "\n")) := by
  rw [comment, Palette.decorate_plain, ← String.toList_inj]
  simp [commentLines, String.toList_append]

theorem Header.newlines_commentLines (h : Header) :
    ∀ line ∈ h.commentLines .core, newlines line = 0 := by
  have hgenerator : newlines (Grammar.core.generator h.generator) = 0 :=
    newlines_generatorName h.generator
  simp only [commentLines, List.forall_mem_cons, newlines_append, newlines_decimal, hgenerator]
  exact ⟨rfl, rfl, rfl, rfl, rfl, List.forall_mem_nil _⟩

theorem Listing.text_plain (g : Grammar) (h : Header) (is : List Instruction) :
    text g .plain h is =
      String.join ((h.commentLines g ++ is.map (·.render .plain)).map (· ++ "\n")) := by
  rw [← join_pieces, String.join_cons, Header.comment_plain, List.map_append, String.join_append,
    List.map_map]
  rfl

/-- **The lines of a plain listing** are those of the block that describes the header and those of
its instructions. -/
theorem Listing.hasLines_text (h : Header) (is : List Instruction) :
    HasLines (text .core .plain h is)
      (h.commentLines .core ++ is.flatMap fun i => linesOf (i.render .plain)) := by
  rw [text_plain]
  have hlines := hasLines_join (h.commentLines .core ++ is.map (·.render .plain))
  rwa [List.flatMap_append, flatMap_linesOf_of_newlines_eq_zero h.newlines_commentLines,
    List.flatMap_map] at hlines

/-- The text consists of five lines of comment and one line for each of the instructions. -/
def HasLineEach (text : String) (is : List Instruction) : Prop :=
  ∃ comments : List String, comments.length = 5 ∧
    (∀ line ∈ comments, line.toList.head? = some ';') ∧
    HasLines text (comments ++ is.map (·.render .plain))

/-- There is one line for each instruction exactly if none of the instructions brings a newline
with it. -/
theorem Listing.hasLineEach_text_iff (h : Header) (is : List Instruction) :
    HasLineEach (text .core .plain h is) is ↔ ∀ i ∈ is, newlines (i.render .plain) = 0 := by
  constructor
  · rintro ⟨comments, hfive, -, hlines⟩
    -- there are as many lines as newlines, and one newline ends each of them
    have hcount := hlines.length_eq
    rw [text_plain, newlines_join_lines, List.length_append, List.length_append, hfive,
      List.map_append, List.sum_append] at hcount
    have hheader : (h.commentLines .core).length = 5 := rfl
    have hsum : ((is.map (·.render .plain)).map newlines).sum = 0 := by omega
    rw [List.map_map, List.sum_eq_zero_iff_forall_eq_nat] at hsum
    exact fun i hi => hsum _ (List.mem_map_of_mem hi)
  · intro hnone
    have hlines := hasLines_text h is
    rw [← List.flatMap_map, flatMap_linesOf_of_newlines_eq_zero (List.forall_mem_map.mpr hnone)]
      at hlines
    exact ⟨h.commentLines .core, rfl, by simp [Header.commentLines], hlines⟩

/-- **The lines of the plain listing of a module.** It consists of five lines of comment and the
lines of each instruction, which are one more than there are newlines in the strings of the
instruction. So each instruction has a line to itself exactly if no string holds a newline: strings
are written out as they are. -/
theorem plain_listing_lines {words : List Word} {text : String}
    (h : (disassemble .core .plain words).outcome = .ok text) :
    ∃ (m : Module) (is : List Instruction), (Module.ofWords words).outcome = .ok m ∧
      (first m).items .core = is.map .ok ∧
      HasLines text (m.header.commentLines .core ++ is.flatMap fun i => linesOf (i.render .plain)) ∧
      (∀ i ∈ is, (linesOf (i.render .plain)).length = (i.strings.map newlines).sum + 1) ∧
      (HasLineEach text is ↔ ∀ i ∈ is, ∀ s ∈ i.strings, '\n' ∉ s.toList) := by
  obtain ⟨m, is, hm, hitems, rfl⟩ := exists_text_of_disassemble h
  have hnewlines : ∀ i ∈ is, newlines (i.render .plain) = (i.strings.map newlines).sum := by
    intro i hi
    have hmem : .ok i ∈ (first m).items .core := by
      rw [hitems]
      exact List.mem_map_of_mem hi
    obtain ⟨imported, own, hwritten⟩ := exists_written_of_mem_items hmem
    exact Instruction.newlines_render hwritten
  refine ⟨m, is, hm, hitems, Listing.hasLines_text m.header is, fun i hi => ?_, ?_⟩
  · rw [length_linesOf, hnewlines i hi]
  · rw [Listing.hasLineEach_text_iff]
    refine forall₂_congr fun i hi => ?_
    rw [hnewlines i hi, List.sum_eq_zero_iff_forall_eq_nat, List.forall_mem_map]
    exact forall₂_congr fun s _ => newlines_eq_zero_iff

/-- A name with two letters: its instruction has a line to itself. -/
theorem plain_listing_lines_name :
    let words := [magicNumber, 0x00010000, 0, 5, 0, 0x00030005, 1, 0x00006D61]
    let text := "; SPIR-V\n; Version: 65536\n; Generator: Khronos\n; Bound: 5\n; Schema: 0\n" ++
      "OpName %1 \"am\"\n"
    (disassemble .core .plain words).outcome = .ok text ∧
      ∃ (m : Module) (i : Instruction), (Module.ofWords words).outcome = .ok m ∧
        (first m).items .core = [.ok i] ∧ HasLineEach text [i] := by
  intro words text
  have htext : (disassemble .core .plain words).outcome = .ok text := by decide +kernel
  obtain ⟨m, is, hm, hitems, -, -, hiff⟩ := plain_listing_lines htext
  let name : Instruction := ⟨.opName, 5, 3, none,
    [⟨.id, 1, [], ⟨some .id, "%1"⟩⟩, ⟨.literalString, 0x00006D61, [], ⟨some .string, "am"⟩⟩]⟩
  have hread : (first ⟨.little, .ofBound 5, words.drop 5⟩).items .core = [name].map .ok := by
    decide +kernel
  have hmodule : (Module.ofWords words).outcome = .ok ⟨.little, .ofBound 5, words.drop 5⟩ := rfl
  obtain rfl : m = _ := Except.ok.inj (hm.symm.trans hmodule)
  obtain rfl : is = [name] := List.map_injective_iff.mpr (fun _ _ => Except.ok.inj)
    (hitems.symm.trans hread)
  refine ⟨htext, _, name, hm, hitems, hiff.mpr ?_⟩
  decide +kernel

/-- A name with a newline in it takes two lines, and the listing of one instruction has seven. -/
theorem plain_listing_lines_newline_name :
    let words := [magicNumber, 0x00010000, 0, 5, 0, 0x00030005, 1, 0x00620A61]
    ∃ (m : Module) (i : Instruction) (text : String), (Module.ofWords words).outcome = .ok m ∧
      (first m).items .core = [.ok i] ∧ (disassemble .core .plain words).outcome = .ok text ∧
      newlines text = 7 ∧ ¬ HasLineEach text [i] := by
  intro words
  refine ⟨⟨.little, .ofBound 5, words.drop 5⟩, ⟨.opName, 5, 3, none,
    [⟨.id, 1, [], ⟨some .id, "%1"⟩⟩,
      ⟨.literalString, 0x00620A61, [], ⟨some .string, "a\nb"⟩⟩]⟩,
    "; SPIR-V\n; Version: 65536\n; Generator: Khronos\n; Bound: 5\n; Schema: 0\n" ++
      "OpName %1 \"a\nb\"\n", rfl, by decide +kernel, by decide +kernel, by decide +kernel, ?_⟩
  rintro ⟨comments, hfive, -, hlines⟩
  have hcount := hlines.length_eq
  rw [List.length_append, hfive] at hcount
  revert hcount
  decide +kernel

end Spirv

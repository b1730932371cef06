import Spirv.Proofs.Format
import Spirv.Proofs.Packed

/-!
# Reading operands

What `Operand.read` and `Operand.readAll` accept, said on the words.

- `Operand.Shows`: some words are an operand of a kind, and the text that shows them.
  `read_eq_ok_iff` says that `read` accepts exactly such words, and nothing that follows them
  matters.
- `Operand.Legal`: some words are an operand of a kind, whatever shows them.
- `Operand.Progress.Accepts`: operands that can be read one after another. Reading accepts the
  words of such operands (`readAll_of_accepts`) and no others (`exists_of_readAll`).
- `Format.Fits`: the operands of an instruction, each of the kind at its position.
  `accepts_iff_fits` says that reading them one after another asks for nothing else, although it
  knows no more of them at any time than those it has read. `Format.Fits.exists_fixed` finds one of
  them from the words.
-/

namespace Spirv

namespace Operand

variable {g : Grammar} {opcode : Opcode} {imported : Option ExtInstSet}

/-! ## One operand -/

/-- `Shows g opcode imported kind ws fragment`: the words `ws` are an operand of the given kind in
an instruction of `opcode` that is read while the set `imported` is selected, and `fragment` is its
text. -/
inductive Shows (g : Grammar) (opcode : Opcode) (imported : Option ExtInstSet) :
    OperandKind → List Word → Fragment → Prop where
  | id (w : Word) : Shows g opcode imported .id [w] ⟨some .id, "%" ++ w.decimal⟩
  | resultId (w : Word) : Shows g opcode imported .resultId [w] ⟨some .resultId, "%" ++ w.decimal⟩
  | literal (w : Word) : Shows g opcode imported .literal [w] ⟨some .literal, w.decimal⟩
  | number (w : Word) (h : opcode ≠ .opExtInst) :
      Shows g opcode imported .literalNumber [w] ⟨some .literal, w.decimal⟩
  /-- The number of an extended instruction stands for its name in the selected set. -/
  | extInst {w : Word} {set : ExtInstSet} {name : String} (h : opcode = .opExtInst)
      (hset : imported = some set) (hname : g.extInst set w = some name) :
      Shows g opcode imported .literalNumber [w] ⟨some .literal, name⟩
  | enumerant {kind : OperandKind} {w : Word} {e : Enumerant} (hkind : kind.isEnumerated = true)
      (he : g.enumerant kind w = some e) : Shows g opcode imported kind [w] ⟨none, e.name⟩
  /-- An import names a set. -/
  | string {ws : List Word} (hws : Packed.IsString ws)
      (himport : opcode = .opExtInstImport → ∃ set, g.extInstSet (Packed.text ws) = some set) :
      Shows g opcode imported .literalString ws ⟨some .string, Packed.text ws⟩

/-- The words are an operand of the given kind. -/
def Legal (g : Grammar) (opcode : Opcode) (imported : Option ExtInstSet)
    (kind : OperandKind) (ws : List Word) : Prop :=
  ∃ fragment, Shows g opcode imported kind ws fragment

/-- An operand of another kind than a string is one word. -/
theorem Shows.eq_singleton {kind : OperandKind} {ws : List Word} {fragment : Fragment}
    (h : Shows g opcode imported kind ws fragment) (hkind : kind ≠ .literalString) :
    ∃ w, ws = [w] := by
  cases h with
  | string => exact absurd rfl hkind
  | _ => exact ⟨_, rfl⟩

theorem Shows.ne_nil {kind : OperandKind} {ws : List Word} {fragment : Fragment}
    (h : Shows g opcode imported kind ws fragment) : ws ≠ [] := by
  cases h with
  | string hws => exact hws.ne_nil
  | _ => exact List.cons_ne_nil _ _

/-- The string of an import names a set. -/
theorem Shows.exists_extInstSet {ws : List Word} {fragment : Fragment}
    (h : Shows g .opExtInstImport imported .literalString ws fragment) :
    ∃ set, g.extInstSet fragment.text = some set := by
  cases h with
  | string _ himport => exact himport rfl
  | enumerant hkind => cases hkind

theorem text_of_isEnumerated {kind : OperandKind} {w : Word} {e : Enumerant}
    (hkind : kind.isEnumerated = true) (he : g.enumerant kind w = some e) :
    text g opcode imported kind w = .ok ⟨none, e.name⟩ := by
  unfold text
  split
  case h_5 => rw [he]
  all_goals cases hkind

/-- The words of one word are those that show it. -/
theorem text_eq_ok_iff {kind : OperandKind} {w : Word} {fragment : Fragment}
    (hkind : kind ≠ .literalString) :
    text g opcode imported kind w = .ok fragment ↔ Shows g opcode imported kind [w] fragment := by
  constructor
  · intro h
    unfold text at h
    split at h
    · cases h
      exact .id w
    · cases h
      exact .resultId w
    · cases h
      exact .literal w
    · split at h
      · next hopcode =>
        split at h
        · contradiction
        · split at h
          · contradiction
          · next hname =>
            cases h
            exact .extInst hopcode rfl hname
      · next hopcode =>
        cases h
        exact .number w hopcode
    · split at h
      · contradiction
      · next he =>
        cases h
        refine .enumerant ?_ he
        cases kind <;> simp_all [OperandKind.isEnumerated]
  · intro h
    cases h with
    | id | resultId | literal => rfl
    | number _ hopcode =>
      unfold text
      rw [if_neg hopcode]
    | extInst hopcode hset hname =>
      simp only [text, if_pos hopcode, hset, hname]
    | enumerant henum he => exact text_of_isEnumerated henum he
    | string => contradiction

/-- The set that is selected behind an operand. -/
def selected (g : Grammar) (opcode : Opcode) (imported : Option ExtInstSet) (o : Operand) :
    Option ExtInstSet :=
  if opcode = .opExtInstImport ∧ o.kind = .literalString then g.extInstSet o.fragment.text
  else imported

/-- An import selects the set that it names. -/
theorem select_eq_ok_iff {name : String} {after : Option ExtInstSet} :
    select g opcode imported name = .ok after ↔
      (opcode = .opExtInstImport → ∃ set, g.extInstSet name = some set) ∧
        after = if opcode = .opExtInstImport then g.extInstSet name else imported := by
  unfold select
  by_cases hopcode : opcode = .opExtInstImport
  · simp only [hopcode, forall_const]
    cases g.extInstSet name with
    | none => simp
    | some set => simp [eq_comm]
  · simp [hopcode, eq_comm]

variable {order : ByteOrder}

theorem read_string_eq_ok_iff {position : Nat} {ws : List Word} {o : Operand}
    {after : Option ExtInstSet} :
    read g order opcode imported .literalString position ws = .ok (o, after) ↔
      o.kind = .literalString ∧ Shows g opcode imported .literalString o.words o.fragment ∧
        o.words <+: ws.map order.fix ∧ after = o.selected g opcode imported := by
  constructor
  · intro h
    cases ws with
    | nil => contradiction
    | cons first rest =>
      dsimp only [read] at h
      rw [if_pos rfl] at h
      split at h
      · contradiction
      · next string last hread =>
        split at h
        · contradiction
        · next after' hselect =>
          cases h
          obtain ⟨-, hstring, rfl⟩ := Packed.isString_of_read? rfl hread
          obtain ⟨himport, rfl⟩ := select_eq_ok_iff.mp hselect
          rw [List.map_cons, List.take_succ_cons, ← List.map_take] at hstring himport ⊢
          refine ⟨rfl, .string hstring himport, ?_, by simp [selected]⟩
          rw [words, List.map_take]
          exact List.take_prefix (last + 1) (order.fix first :: rest.map order.fix)
  · rintro ⟨hkind, hshows, ⟨rest, hws⟩, rfl⟩
    obtain ⟨kind, first, more, fragment⟩ := o
    cases hkind
    change Shows g opcode imported .literalString (first :: more) fragment at hshows
    cases hshows with
    | string hstring himport =>
      have hread := hstring.read?_append hws.symm
      cases ws with
      | nil => cases hws
      | cons word loaded =>
        obtain ⟨hfirst, hmore⟩ : first = order.fix word ∧ more ++ rest = loaded.map order.fix :=
          List.cons.inj hws
        have htake : (loaded.take more.length).map order.fix = more := by
          rw [List.map_take, ← hmore, List.take_left]
        dsimp only [read]
        rw [if_pos rfl, hread]
        dsimp only
        rw [select_eq_ok_iff.mpr ⟨himport, rfl⟩, List.length_cons, Nat.add_sub_cancel, htake,
          ← hfirst]
        simp [selected]
    | enumerant henum => cases henum

theorem read_word_eq_ok_iff {kind : OperandKind} (hkind : kind ≠ .literalString) {position : Nat}
    {ws : List Word} {o : Operand} {after : Option ExtInstSet} :
    read g order opcode imported kind position ws = .ok (o, after) ↔
      o.kind = kind ∧ Shows g opcode imported kind o.words o.fragment ∧
        o.words <+: ws.map order.fix ∧ after = o.selected g opcode imported := by
  constructor
  · intro h
    cases ws with
    | nil => contradiction
    | cons first rest =>
      dsimp only [read] at h
      rw [if_neg hkind] at h
      split at h
      · contradiction
      · next fragment htext =>
        cases h
        exact ⟨rfl, (text_eq_ok_iff hkind).mp htext, ⟨rest.map order.fix, rfl⟩,
          by simp [selected, hkind]⟩
  · rintro ⟨rfl, hshows, ⟨rest, hws⟩, rfl⟩
    obtain ⟨kind, first, more, fragment⟩ := o
    obtain ⟨w, hw⟩ := hshows.eq_singleton hkind
    cases hw
    cases ws with
    | nil => cases hws
    | cons word loaded =>
      obtain ⟨rfl, -⟩ : first = order.fix word ∧ rest = loaded.map order.fix := List.cons.inj hws
      dsimp only [read]
      rw [if_neg hkind, (text_eq_ok_iff hkind).mpr hshows]
      simp [selected, hkind]

/-- **What is read as an operand.** It is the start of the words, and what follows does not
matter. -/
theorem read_eq_ok_iff {kind : OperandKind} {position : Nat} {ws : List Word} {o : Operand}
    {after : Option ExtInstSet} :
    read g order opcode imported kind position ws = .ok (o, after) ↔
      o.kind = kind ∧ Shows g opcode imported kind o.words o.fragment ∧
        o.words <+: ws.map order.fix ∧ after = o.selected g opcode imported := by
  by_cases hkind : kind = .literalString
  · subst hkind
    exact read_string_eq_ok_iff
  · exact read_word_eq_ok_iff hkind

/-- Behind operands that are one word each, an operand starts where its position says. -/
theorem getElem?_flatMap_words {os : List Operand} {n : Nat} (h : ∀ o ∈ os.take n, o.more = []) :
    (os.flatMap words)[n]? = (os[n]?).map first := by
  induction n generalizing os with
  | zero =>
    cases os with
    | nil => rfl
    | cons o os => rfl
  | succ n ih =>
    cases os with
    | nil => rfl
    | cons o os =>
      rw [List.take_succ_cons, List.forall_mem_cons] at h
      rw [List.flatMap_cons, words, h.1]
      exact ih h.2

/-! ## Operands one after another -/

/-- The progress after one more operand. -/
def Progress.after (g : Grammar) (f : Format) (p : Progress) (o : Operand) : Progress where
  done := p.done.push o
  active := activate g f p.active p.done.size o.first
  imported := o.selected g f.opcode p.imported

/-- The operands can be read one after another. -/
def Progress.Accepts (g : Grammar) (f : Format) : Progress → List Operand → Prop
  | _, [] => True
  | p, o :: os =>
    f.kindAt? (p.after g f o).active p.done.size = some o.kind ∧
      Shows g f.opcode p.imported o.kind o.words o.fragment ∧ (p.after g f o).Accepts g f os

variable {f : Format} {truncated : Diagnostic}

@[simp] theorem length_words (o : Operand) : o.words.length = o.more.length + 1 := rfl

section

variable {left position : Nat} {word first : Word} {rest : List Word} {p : Progress}
  {kind : OperandKind}

/-- An operand that cannot be read is the end. -/
theorem readAll_of_read_eq_error {d : Diagnostic} (hfirst : order.fix word = first)
    (hkind : f.kindAt? (activate g f p.active p.done.size first) p.done.size = some kind)
    (hread : read g order f.opcode p.imported kind position (word :: rest) = .error d) :
    readAll g order f truncated (left + 1) position (word :: rest) p = .error d := by
  rw [readAll]
  dsimp only
  rw [hfirst, hkind]
  simp only [hread]

/-- The words behind an operand are read when it has been read. -/
theorem readAll_of_read_eq_ok {o : Operand} {after : Option ExtInstSet}
    (hfirst : order.fix word = first)
    (hkind : f.kindAt? (activate g f p.active p.done.size first) p.done.size = some kind)
    (hread : read g order f.opcode p.imported kind position (word :: rest) = .ok (o, after)) :
    readAll g order f truncated (left + 1) position (word :: rest) p =
      readAll g order f truncated (left - o.more.length) (position + 1 + o.more.length)
        (rest.drop o.more.length)
        ⟨p.done.push o, activate g f p.active p.done.size first, after⟩ := by
  rw [readAll]
  dsimp only
  rw [hfirst, hkind]
  simp only [hread]

/-- An operand of one word is read, and then the others behind it. -/
theorem readAll_of_text_eq_ok {fragment : Fragment} (hfirst : order.fix word = first)
    (hkind : f.kindAt? (activate g f p.active p.done.size first) p.done.size = some kind)
    (hword : kind ≠ .literalString) (htext : text g f.opcode p.imported kind first = .ok fragment) :
    readAll g order f truncated (left + 1) position (word :: rest) p =
      readAll g order f truncated left (position + 1) rest
        ⟨p.done.push ⟨kind, first, [], fragment⟩, activate g f p.active p.done.size first,
          p.imported⟩ := by
  have hread : read g order f.opcode p.imported kind position (word :: rest) =
      .ok (⟨kind, first, [], fragment⟩, p.imported) := by
    dsimp only [read]
    rw [if_neg hword, hfirst, htext]
  exact readAll_of_read_eq_ok hfirst hkind hread

/-- An operand of one word that has no text is the end. -/
theorem readAll_of_text_eq_error {cause : Cause} (hfirst : order.fix word = first)
    (hkind : f.kindAt? (activate g f p.active p.done.size first) p.done.size = some kind)
    (hword : kind ≠ .literalString) (htext : text g f.opcode p.imported kind first = .error cause) :
    readAll g order f truncated (left + 1) position (word :: rest) p =
      .error ⟨position, some first, cause⟩ := by
  have hread : read g order f.opcode p.imported kind position (word :: rest) =
      .error ⟨position, some first, cause⟩ := by
    dsimp only [read]
    rw [if_neg hword, hfirst, htext]
  exact readAll_of_read_eq_error hfirst hkind hread

end

/-- The operand at the start of the words is read, and then the others behind it. -/
theorem readAll_succ {left position : Nat} {p : Progress} {o : Operand} {loaded rest : List Word}
    (hkind : f.kindAt? (p.after g f o).active p.done.size = some o.kind)
    (hshows : Shows g f.opcode p.imported o.kind o.words o.fragment)
    (hws : loaded.map order.fix = o.words ++ rest) :
    readAll g order f truncated (left + 1) position loaded p =
      readAll g order f truncated (left - o.more.length) (position + 1 + o.more.length)
        (loaded.drop o.words.length) (p.after g f o) := by
  have hread : read g order f.opcode p.imported o.kind position loaded =
      .ok (o, o.selected g f.opcode p.imported) :=
    read_eq_ok_iff.mpr ⟨rfl, hshows, ⟨_, hws.symm⟩, rfl⟩
  cases loaded with
  | nil => cases hws
  | cons word loaded =>
    exact readAll_of_read_eq_ok (List.cons.inj hws).1 hkind hread

/-- Operands that can be read one after another are read if they take the words that remain. -/
theorem readAll_of_accepts {left position : Nat} {p : Progress} {os : List Operand}
    {loaded rest : List Word} (h : p.Accepts g f os) (hleft : (os.flatMap words).length = left)
    (hws : loaded.map order.fix = os.flatMap words ++ rest) :
    readAll g order f truncated left position loaded p =
      .ok (os.foldl (Progress.after g f) p) := by
  induction os generalizing left position p loaded with
  | nil =>
    subst hleft
    rw [List.flatMap_nil, List.length_nil, readAll]
    rfl
  | cons o os ih =>
    obtain ⟨hkind, hshows, hos⟩ := h
    rw [List.flatMap_cons, List.append_assoc] at hws
    rw [List.flatMap_cons, List.length_append, length_words] at hleft
    obtain ⟨left, rfl⟩ : ∃ n, left = n + 1 := ⟨left - 1, by omega⟩
    have hlen : (os.flatMap words).length = left - o.more.length := by omega
    have hdrop : (loaded.drop o.words.length).map order.fix = os.flatMap words ++ rest := by
      rw [List.map_drop, hws, List.drop_left]
    rw [readAll_succ hkind hshows hws]
    exact ih hos hlen hdrop

/-- What is read are operands that can be read one after another, and their words. They take at
least the words that remain of the instruction, and more if a string reaches past its end. -/
theorem exists_of_readAll {left position : Nat} {ws : List Word} {p q : Progress}
    (h : readAll g order f truncated left position ws p = .ok q) :
    ∃ os, p.Accepts g f os ∧ os.flatMap words <+: ws.map order.fix ∧
      q = os.foldl (Progress.after g f) p ∧ left ≤ (os.flatMap words).length := by
  fun_induction readAll g order f truncated left position ws p with
  | case1 position ws p =>
    cases h
    exact ⟨[], trivial, List.nil_prefix, rfl, Nat.le_refl 0⟩
  | case2 => contradiction
  | case3 => contradiction
  | case4 => contradiction
  | case5 position p left word rest first index active kind hkind o imported hread more ih =>
    obtain ⟨rfl, hshows, ⟨rest', hrest⟩, rfl⟩ := read_eq_ok_iff.mp hread
    obtain ⟨hfirst, hmore⟩ : o.first = first ∧ o.more ++ rest' = rest.map order.fix :=
      List.cons.inj hrest
    have hdrop : (rest.drop o.more.length).map order.fix = rest' := by
      rw [List.map_drop, ← hmore, List.drop_left]
    -- the operand starts with the word that was corrected to find its kind
    have hafter : p.after g f o =
        ⟨p.done.push o, active, o.selected g f.opcode p.imported⟩ := by
      rw [Progress.after, hfirst]
    obtain ⟨os, hos, hprefix, hq, hleft⟩ := ih h
    rw [← hafter] at hos hq
    refine ⟨o :: os, ⟨?_, hshows, hos⟩, ?_, hq, ?_⟩
    · rw [hafter]
      exact hkind
    · rw [hdrop] at hprefix
      rw [← hrest, List.flatMap_cons]
      exact (List.prefix_append_right_inj _).mpr hprefix
    · rw [List.flatMap_cons, List.length_append, length_words]
      omega

/-! ## The operands of an instruction -/

/-- Only the number of an extended instruction depends on the set that is selected. -/
theorem Shows.of_ne_opExtInst {other : Option ExtInstSet} {kind : OperandKind} {ws : List Word}
    {fragment : Fragment} (h : Shows g opcode imported kind ws fragment)
    (hopcode : opcode ≠ .opExtInst) : Shows g opcode other kind ws fragment := by
  cases h with
  | id w => exact .id w
  | resultId w => exact .resultId w
  | literal w => exact .literal w
  | number w h => exact .number w h
  | extInst h => contradiction
  | enumerant hkind he => exact .enumerant hkind he
  | string hws himport => exact .string hws himport

/-- No operand changes what the operands behind it in its instruction mean: an instruction that
imports a set has no use for it. -/
theorem shows_selected_iff {o : Operand} {kind : OperandKind} {ws : List Word}
    {fragment : Fragment} :
    Shows g opcode (o.selected g opcode imported) kind ws fragment ↔
      Shows g opcode imported kind ws fragment := by
  by_cases hopcode : opcode = .opExtInst
  · have himport : opcode ≠ .opExtInstImport := by
      rw [hopcode]
      decide
    rw [selected, if_neg fun h => himport h.1]
  · exact ⟨fun h => h.of_ne_opExtInst hopcode, fun h => h.of_ne_opExtInst hopcode⟩

end Operand

open Operand

/-- The operands are those of an instruction of the given format: each is of the kind at its
position. `imported` is the set that is selected before the instruction. -/
def Format.Fits (g : Grammar) (f : Format) (imported : Option ExtInstSet) (os : List Operand) :
    Prop :=
  ∀ i o, os[i]? = some o →
    KindAt g f (os.map words) i o.kind ∧ Shows g f.opcode imported o.kind o.words o.fragment

/-- An operand at a fixed position behind operands that are one word each. It is there if the words
of the operands reach so far. -/
theorem Format.Fits.exists_fixed {g : Grammar} {f : Format} {imported : Option ExtInstSet}
    {os : List Operand} (h : f.Fits g imported os) {n : Nat} {kind : OperandKind}
    (hkind : f.fixed[n]? = some kind) (hone : .literalString ∉ f.fixed.take n)
    (hlen : n < (os.flatMap words).length) :
    ∃ o, os[n]? = some o ∧ o.kind = kind ∧ Shows g f.opcode imported kind o.words o.fragment ∧
      (os.flatMap words)[n]? = some o.first := by
  have hn := (List.getElem?_eq_some_iff.mp hkind).1
  have hfixed : ∀ i o, os[i]? = some o → i ≤ n → f.fixed[i]? = some o.kind := by
    intro i o ho hi
    have hi' : i < f.fixed.length := by omega
    rw [List.getElem?_eq_getElem hi',
      (h i o ho).1.unique (.fixed (List.getElem?_eq_getElem hi'))]
  have hmore : ∀ o ∈ os.take n, o.more = [] := by
    intro o ho
    obtain ⟨i, hi, rfl⟩ := List.mem_take_iff_getElem.mp ho
    have hio := List.getElem?_eq_getElem (l := os) (i := i) (by omega)
    have hne : os[i].kind ≠ .literalString := by
      intro hstring
      have hmem : f.fixed[i]? = some .literalString := hstring ▸ hfixed i _ hio (by omega)
      refine hone (List.mem_of_getElem? (i := i) ?_)
      rwa [List.getElem?_take_of_lt (by omega)]
    obtain ⟨w, hw⟩ := (h i _ hio).2.eq_singleton hne
    exact (List.cons.inj hw).2
  have hfirst := getElem?_flatMap_words hmore
  rw [List.getElem?_eq_getElem hlen, eq_comm, Option.map_eq_some_iff] at hfirst
  obtain ⟨o, ho, hword⟩ := hfirst
  have ho' := hfixed n o ho (Nat.le_refl n)
  rw [hkind] at ho'
  cases ho'
  exact ⟨o, ho, rfl, (h n o ho).2, by rw [List.getElem?_eq_getElem hlen, hword]⟩

namespace Operand.Progress

variable {g : Grammar} {f : Format}

/-- What has been read is known for the positions so far. -/
def Consistent (g : Grammar) (f : Format) (p : Progress) : Prop :=
  p.active = Format.active g f (p.done.toList.map words)

theorem Consistent.after {p : Progress} (h : p.Consistent g f) (o : Operand) :
    (p.after g f o).Consistent g f := by
  show activate g f p.active p.done.size o.first =
    Format.active g f ((p.done.push o).toList.map words)
  rw [Array.toList_push, List.map_append, h, List.map_singleton, words, Format.active_concat,
    List.length_map, Array.length_toList]

/-- Reading operands one after another asks for the kinds at their positions. -/
theorem accepts_iff {p : Progress} (h : p.Consistent g f) {os : List Operand} :
    p.Accepts g f os ↔ ∀ i o, os[i]? = some o →
      f.KindAt g ((p.done.toList ++ os).map words) (p.done.size + i) o.kind ∧
        Shows g f.opcode p.imported o.kind o.words o.fragment := by
  induction os generalizing p with
  | nil => exact ⟨fun _ i o ho => by contradiction, fun _ => trivial⟩
  | cons o os ih =>
    have hdone : (p.after g f o).done.toList ++ os = p.done.toList ++ o :: os := by
      show (p.done.push o).toList ++ os = _
      rw [Array.toList_push, List.append_assoc]
      rfl
    have hsize : (p.after g f o).done.size = p.done.size + 1 := Array.size_push o
    -- the kind at this position is settled by the operands up to it
    have hkind : f.kindAt? (p.after g f o).active p.done.size = some o.kind ↔
        f.KindAt g ((p.done.toList ++ o :: os).map words) p.done.size o.kind := by
      rw [← Format.kindAt?_active_eq_some_iff, ← hdone, List.map_append,
        Format.kindAt?_active_append, h.after o]
      rw [List.length_map, Array.length_toList, hsize]
      exact Nat.lt_succ_self _
    have himported : ∀ o' : Operand,
        Shows g f.opcode (p.after g f o).imported o'.kind o'.words o'.fragment ↔
          Shows g f.opcode p.imported o'.kind o'.words o'.fragment := fun _ => shows_selected_iff
    rw [Accepts, hkind, ih (h.after o), hdone, hsize]
    simp only [himported]
    constructor
    · rintro ⟨hk, hs, hos⟩ i o' ho'
      cases i with
      | zero =>
        cases ho'
        exact ⟨hk, hs⟩
      | succ i =>
        have hi := hos i o' ho'
        rwa [Nat.add_assoc, Nat.add_comm 1] at hi
    · intro hall
      refine ⟨(hall 0 o rfl).1, (hall 0 o rfl).2, fun i o' ho' => ?_⟩
      have hi := hall (i + 1) o' ho'
      rwa [Nat.add_comm i, ← Nat.add_assoc] at hi

/-- **Reading from left to right** accepts the operands of an instruction and nothing else. -/
theorem accepts_iff_fits {imported : Option ExtInstSet} {os : List Operand} :
    Accepts g f { imported } os ↔ f.Fits g imported os := by
  rw [accepts_iff (p := { imported }) rfl]
  simp only [Array.size_empty, Nat.zero_add]
  rfl

theorem toList_done_foldl (os : List Operand) (p : Progress) :
    (os.foldl (after g f) p).done.toList = p.done.toList ++ os := by
  induction os generalizing p with
  | nil => exact (List.append_nil _).symm
  | cons o os ih =>
    rw [List.foldl_cons, ih]
    show (p.done.push o).toList ++ os = _
    rw [Array.toList_push, List.append_assoc]
    rfl

theorem imported_foldl (os : List Operand) (p : Progress) :
    (os.foldl (after g f) p).imported =
      os.foldl (fun imported o => o.selected g f.opcode imported) p.imported := by
  induction os generalizing p with
  | nil => rfl
  | cons o os ih =>
    rw [List.foldl_cons, List.foldl_cons, ih]
    rfl

end Operand.Progress

end Spirv

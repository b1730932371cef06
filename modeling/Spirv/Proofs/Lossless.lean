import Mathlib.Data.List.InsertIdx
import Mathlib.Logic.Function.Basic
import Spirv.Proofs.Module

/-!
# Reading loses nothing

Two modules that are read as the same instructions have the same words.

- `Instruction.shown`: what is shown of an instruction.
- `Operand.Shows.words_injective`: operands of one kind that are shown alike have the same words.
- `Operand.Progress.accepts_injective`: operands that are shown alike are the same, read from left
  to right: the kind at each position is settled by those before it.
- `words_eq_of_shown_eq`: modules that are shown alike have the same words.
-/

namespace Spirv

open Instruction

theorem Word.decimal_injective {v w : Word} (h : v.decimal = w.decimal) : v = w := by
  have hdigits : Nat.toDigits 10 v.toNat = Nat.toDigits 10 w.toNat := by
    rw [← Nat.toList_repr, ← Nat.toList_repr]
    exact congrArg String.toList h
  rw [← UInt32.toNat_inj, ← Nat.ofDigitChars_ten_toDigits (n := v.toNat), hdigits,
    Nat.ofDigitChars_ten_toDigits]

/-! ## One operand -/

namespace Operand

variable {opcode : Opcode} {imported : Option ExtInstSet}

/-- A string among the operands is written as its writer would have written its text. -/
def Canonical (o : Operand) : Prop := o.kind = .literalString → Packed.Canonical o.words

/-- **Operands of one kind that are shown alike** have the same words. -/
theorem Shows.words_injective {kind : OperandKind} {vs ws : List Word}
    {fragment fragment' : Fragment}
    (hv : Shows .core opcode imported kind vs fragment)
    (hw : Shows .core opcode imported kind ws fragment')
    (hcv : kind = .literalString → Packed.Canonical vs)
    (hcw : kind = .literalString → Packed.Canonical ws)
    (h : fragment = fragment') : vs = ws := by
  have htext : fragment.text = fragment'.text := congrArg Fragment.text h
  cases hv with
  | id v =>
    cases hw with
    | id w => rw [Word.decimal_injective ((String.append_right_inj "%").mp htext)]
    | enumerant hkind => cases hkind
  | resultId v =>
    cases hw with
    | resultId w => rw [Word.decimal_injective ((String.append_right_inj "%").mp htext)]
    | enumerant hkind => cases hkind
  | literal v =>
    cases hw with
    | literal w => rw [Word.decimal_injective htext]
    | enumerant hkind => cases hkind
  | number v hopcode =>
    cases hw with
    | number w => rw [Word.decimal_injective htext]
    | extInst hopcode' => exact absurd hopcode' hopcode
    | enumerant hkind => cases hkind
  | @extInst v set name hopcode hset hname =>
    cases hw with
    | number w hopcode' => exact absurd hopcode hopcode'
    | @extInst w set' name' _ hset' hname' =>
      obtain rfl : set = set' := Option.some.inj (hset.symm.trans hset')
      obtain rfl : name = name' := htext
      rw [Grammar.core_extInst_injective hname hname']
    | enumerant hkind => cases hkind
  | enumerant hkind he =>
    cases hw with
    | enumerant _ he' => rw [Grammar.core_enumerant_injective he he' htext]
    | _ => cases hkind
  | string hvs =>
    cases hw with
    | string hws =>
      have htexts : Packed.text vs = Packed.text ws := htext
      rw [← Packed.words_text hvs (hcv rfl), htexts, Packed.words_text hws (hcw rfl)]
    | enumerant hkind => cases hkind

/-! ## The operands of an instruction -/

theorem Progress.kind_unique {g : Grammar} {f : Format} {p : Progress} {o o' : Operand}
    (h : f.kindAt? (p.after g f o).active p.done.size = some o.kind)
    (h' : f.kindAt? (p.after g f o').active p.done.size = some o'.kind) : o.kind = o'.kind := by
  have hkind : f.kindAt? p.active p.done.size = some o.kind :=
    Format.kindAt?_activate.symm.trans h
  have hkind' : f.kindAt? p.active p.done.size = some o'.kind :=
    Format.kindAt?_activate.symm.trans h'
  exact Option.some.inj (hkind.symm.trans hkind')

/-- **Operands that are shown alike** are the same if they are read from the same place on. -/
theorem Progress.accepts_injective {f : Format} {p : Progress} {os os' : List Operand}
    (h : p.Accepts .core f os) (h' : p.Accepts .core f os') (hc : ∀ o ∈ os, o.Canonical)
    (hc' : ∀ o ∈ os', o.Canonical) (hshown : os.map (·.fragment) = os'.map (·.fragment)) :
    os = os' := by
  induction os generalizing p os' with
  | nil => rw [List.map_eq_nil_iff.mp hshown.symm]
  | cons o os ih =>
    obtain ⟨o', os', rfl, hfirst, hrest⟩ := List.map_eq_cons_iff.mp hshown.symm
    obtain ⟨hkind, hshows, hos⟩ := h
    obtain ⟨hkind', hshows', hos'⟩ := h'
    -- both runs have come to the same place, so they ask for the same kind
    have hkinds : o.kind = o'.kind := kind_unique hkind hkind'
    have hwords : o.words = o'.words :=
      hshows.words_injective (hkinds ▸ hshows') (hc o List.mem_cons_self)
        (hkinds ▸ hc' o' List.mem_cons_self) hfirst.symm
    obtain rfl : o = o' := by
      obtain ⟨kind, first, more, fragment⟩ := o
      obtain ⟨kind', first', more', fragment'⟩ := o'
      obtain ⟨rfl, rfl⟩ : first = first' ∧ more = more' := List.cons.inj hwords
      obtain rfl : kind = kind' := hkinds
      obtain rfl : fragment' = fragment := hfirst
      rfl
    rw [ih hos hos' (fun o ho => hc o (List.mem_cons_of_mem _ ho))
      (fun o ho => hc' o (List.mem_cons_of_mem _ ho)) hrest.symm]

end Operand

/-! ## One instruction -/

namespace Instruction

/-- What is shown of an instruction: its opcode, its result id and its other operands. -/
def shown (i : Instruction) : Opcode × Option Fragment × List Fragment :=
  (i.opcode, i.result.map (·.fragment), i.arguments.map (·.fragment))

/-- The strings of the instruction are written as their writer would have written their text. -/
def Canonical (i : Instruction) : Prop := ∀ o ∈ i.operands, o.Canonical

/-- A list can be told from one of its elements and the others. -/
theorem eq_of_getElem?_of_eraseIdx {α : Type} {l l' : List α} {n : Nat} (hn : l[n]? = l'[n]?)
    (h : l.eraseIdx n = l'.eraseIdx n) : l = l' := by
  induction n generalizing l l' with
  | zero =>
    rw [← List.head?_eq_getElem?, ← List.head?_eq_getElem?] at hn
    rw [List.eraseIdx_zero, List.eraseIdx_zero] at h
    cases l with
    | nil => rw [List.head?_eq_none_iff.mp hn.symm]
    | cons a l =>
      obtain ⟨rest, rfl⟩ := List.head?_eq_some_iff.mp hn.symm
      rw [show l = rest from h]
  | succ n ih =>
    cases l with
    | nil =>
      cases l' with
      | nil => rfl
      | cons a l' => cases h
    | cons a l =>
      cases l' with
      | nil => cases h
      | cons a' l' =>
        obtain ⟨rfl, hrest⟩ := List.cons.inj h
        rw [ih hn hrest]

/-- All operands are shown, the one that is the result id apart from the others. -/
theorem map_fragment_eq {i j : Instruction} (hindex : i.resultIndex = j.resultIndex)
    (h : i.shown = j.shown) : i.operands.map (·.fragment) = j.operands.map (·.fragment) := by
  obtain ⟨-, hresult, harguments⟩ : i.opcode = j.opcode ∧
      i.result.map (·.fragment) = j.result.map (·.fragment) ∧
      i.arguments.map (·.fragment) = j.arguments.map (·.fragment) := by
    simpa only [shown, Prod.mk.injEq] using h
  unfold result at hresult
  unfold arguments at harguments
  rw [← hindex] at hresult harguments
  cases hi : i.resultIndex with
  | none =>
    rw [hi] at harguments
    exact harguments
  | some index =>
    rw [hi] at hresult harguments
    rw [Option.bind_some, Option.bind_some, ← List.getElem?_map, ← List.getElem?_map] at hresult
    refine eq_of_getElem?_of_eraseIdx hresult ?_
    rw [List.eraseIdx_map, List.eraseIdx_map]
    exact harguments

/-- **Instructions that are shown alike** have the same words and select the same set. -/
theorem Written.words_injective {imported : Option ExtInstSet} {i j : Instruction}
    {vs ws : List Word} (hi : Written .core imported i vs) (hj : Written .core imported j ws)
    (hci : i.Canonical) (hcj : j.Canonical) (h : i.shown = j.shown) :
    vs = ws ∧ i.selected .core imported = j.selected .core imported := by
  have hopcode : i.opcode = j.opcode := congrArg Prod.fst h
  cases hi with
  | @intro first f os position hf _ hcount hos =>
    cases hj with
    | @intro first' f' os' position' hf' _ hcount' hos' =>
      obtain ⟨hnumber, hformat⟩ := Grammar.eq_code_of_core_opcode hf
      obtain ⟨hnumber', hformat'⟩ := Grammar.eq_code_of_core_opcode hf'
      have hopcodes : f.opcode = f'.opcode := hopcode
      obtain rfl : f = f' := by rw [hformat, hformat', hopcodes]
      have hfragments := map_fragment_eq (by rfl) h
      obtain rfl : os = os' := Operand.Progress.accepts_injective
        (Operand.Progress.accepts_iff_fits.mpr hos) (Operand.Progress.accepts_iff_fits.mpr hos')
        hci hcj hfragments
      have hfirst : first = first' := by
        rw [← Word.pack_wordCount_opcodeNumber first, ← Word.pack_wordCount_opcodeNumber first',
          hcount, hcount', hnumber, hnumber']
      exact ⟨by rw [hfirst], rfl⟩

end Instruction

/-! ## Modules -/

/-- Instructions that are shown alike have the same words if they are read from the same place
on. -/
theorem Code.words_injective {position position' : Nat} {imported : Option ExtInstSet}
    {is js : List Instruction} {vs ws : List Word} (hi : Code .core position imported is vs)
    (hj : Code .core position' imported js ws) (hci : ∀ i ∈ is, i.Canonical)
    (hcj : ∀ j ∈ js, j.Canonical) (h : is.map Instruction.shown = js.map Instruction.shown) :
    vs = ws := by
  induction is generalizing position position' imported js vs ws with
  | nil =>
    obtain rfl : js = [] := List.map_eq_nil_iff.mp h.symm
    cases hi
    cases hj
    rfl
  | cons i is ih =>
    obtain ⟨j, js, rfl, hfirst, hrest⟩ := List.map_eq_cons_iff.mp h.symm
    cases hi with
    | cons _ hwritten hcode =>
      cases hj with
      | cons _ hwritten' hcode' =>
        obtain ⟨rfl, hselected⟩ := hwritten.words_injective hwritten' (hci i List.mem_cons_self)
          (hcj j List.mem_cons_self) hfirst.symm
        rw [← hselected] at hcode'
        rw [ih hcode hcode' (fun i hi => hci i (List.mem_cons_of_mem _ hi))
          (fun j hj => hcj j (List.mem_cons_of_mem _ hj)) hrest.symm]

/-- A module is its header and the words behind it. -/
theorem Module.map_fix_eq {words : List Word} {m : Module}
    (h : (Module.ofWords words).outcome = .ok m) :
    words.map m.order.fix = m.header.words ++ m.code.map m.order.fix := by
  unfold Module.ofWords at h
  dsimp only at h
  split at h
  · contradiction
  · split at h
    · contradiction
    · next hheader =>
      cases h
      unfold Header.read at hheader
      split at hheader
      · cases hheader
        rfl
      · contradiction

/-- **Reading loses nothing.** Two modules that are read without a failure, with strings that are
written as their texts are, have the same words if their headers are equal and their instructions
are shown alike. -/
theorem words_eq_of_shown_eq {u v : List Word} {mu mv : Module} {is js : List Instruction}
    (hu : (Module.ofWords u).outcome = .ok mu) (hv : (Module.ofWords v).outcome = .ok mv)
    (his : (Cursor.first mu).items .core = is.map .ok)
    (hjs : (Cursor.first mv).items .core = js.map .ok)
    (hci : ∀ i ∈ is, i.Canonical) (hcj : ∀ j ∈ js, j.Canonical)
    (hheader : mu.header = mv.header)
    (hshown : is.map Instruction.shown = js.map Instruction.shown) :
    u.map mu.order.fix = v.map mv.order.fix ∧ (mu.order = mv.order → u = v) := by
  have hcode : mu.code.map mu.order.fix = mv.code.map mv.order.fix := Code.words_injective
    ((Cursor.items_eq_map_ok_iff rfl).mp his) ((Cursor.items_eq_map_ok_iff rfl).mp hjs) hci hcj
    hshown
  have hwords : u.map mu.order.fix = v.map mv.order.fix := by
    rw [Module.map_fix_eq hu, Module.map_fix_eq hv, hheader, hcode]
  refine ⟨hwords, fun horder => ?_⟩
  have hinvolutive : Function.Involutive mu.order.fix := ByteOrder.fix_fix mu.order
  rw [← horder] at hwords
  exact List.map_injective_iff.mpr hinvolutive.injective hwords

/-- A module with one name, in either byte order. -/
theorem words_eq_of_shown_eq_name :
    let u := [0x07230203, 0x00010000, 0, 2, 0, 0x00030005, 1, 0x00636261]
    let v := u.map Word.swap
    let i : Instruction := ⟨.opName, 5, 3, none,
      [⟨.id, 1, [], ⟨some .id, "%" ++ (1 : Word).decimal⟩⟩,
        ⟨.literalString, 0x00636261, [], ⟨some .string, Packed.text [0x00636261]⟩⟩]⟩
    ∃ mu mv, (Module.ofWords u).outcome = .ok mu ∧ (Module.ofWords v).outcome = .ok mv ∧
      (Cursor.first mu).items .core = [i].map .ok ∧
      (Cursor.first mv).items .core = [i].map .ok ∧
      u.map mu.order.fix = v.map mv.order.fix := by
  intro u v i
  have hu : (Module.ofWords u).outcome =
      .ok ⟨.little, .ofBound 2, [0x00030005, 1, 0x00636261]⟩ := rfl
  have hv : (Module.ofWords v).outcome =
      .ok ⟨.big, .ofBound 2, [0x00030005, 1, 0x00636261].map Word.swap⟩ := rfl
  have hnumber : (0x00030005 : Word).opcodeNumber = Opcode.opName.code := by decide
  have hf : Grammar.core.opcode (0x00030005 : Word).opcodeNumber =
      some (Grammar.coreFormat .opName) := by rw [hnumber, Grammar.core_opcode_code]
  have hfits : (Grammar.coreFormat .opName).Fits .core none i.operands := by
    intro n o ho
    match n, ho with
    | 0, rfl => exact ⟨.fixed rfl, .id 1⟩
    | 1, rfl => exact ⟨.fixed rfl, .string (by decide) fun h => by contradiction⟩
  have hcode : Code .core 5 none [i] [0x00030005, 1, 0x00636261] :=
    .cons rfl (.intro 5 hf (by decide) (by decide) hfits) (.nil _ _)
  have hitems : ∀ m : Module, m.code.map m.order.fix = [0x00030005, 1, 0x00636261] →
      (Cursor.first m).items .core = [i].map .ok := by
    intro m hm
    refine (Cursor.items_eq_map_ok_iff rfl).mpr ?_
    rw [← hm] at hcode
    exact hcode
  have hcanonical : ∀ j ∈ [i], j.Canonical := by
    intro j hj o ho hkind
    obtain rfl := List.mem_singleton.mp hj
    rcases List.mem_cons.mp ho with rfl | ho
    · contradiction
    · obtain rfl := List.mem_singleton.mp ho
      exact ⟨by decide +kernel, by decide +kernel⟩
  have hwords := words_eq_of_shown_eq hu hv (hitems _ (by decide +kernel))
    (hitems _ (by decide +kernel)) hcanonical hcanonical rfl rfl
  exact ⟨_, _, hu, hv, hitems _ (by decide +kernel), hitems _ (by decide +kernel), hwords.1⟩

end Spirv

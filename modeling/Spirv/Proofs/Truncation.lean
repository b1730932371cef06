import Spirv.Proofs.Listing

/-!
# Modules that are cut short

What is read of the first words of a module that can be read to its end.

- `Operand.exists_readAll_take`, `Instruction.exists_read_take`: an instruction of which some words
  are missing is not read, and the failure lies in the words that are left of it.
- `Instruction.stop`, `EndsAt`: where an instruction ends, and the places where one of several does.
- `Cursor.items_take`: what is read of code that is cut short.
- `truncation_noticed`: what is read of a module that is cut short, and its listing.
-/

namespace Spirv

variable {g : Grammar} {order : ByteOrder}

/-! ## A cut instruction -/

theorem ne_nil_of_map_eq_take {loaded own : List Word} {k : Nat} (hpos : 0 < k)
    (hk : k < own.length) (hws : loaded.map order.fix = own.take k) : loaded ≠ [] := by
  rintro rfl
  have hlen := congrArg List.length hws
  rw [List.length_map, List.length_nil, List.length_take] at hlen
  omega

/-- An operand of which some words are left and others are missing is a string without its end. -/
theorem Operand.read_take {opcode : Opcode} {imported : Option ExtInstSet} {kind : OperandKind}
    {ws loaded : List Word} {fragment : Fragment} {position k : Nat}
    (h : Shows g opcode imported kind ws fragment) (hpos : 0 < k) (hk : k < ws.length)
    (hws : loaded.map order.fix = ws.take k) :
    read g order opcode imported kind position loaded =
      .error ⟨position, none, .unterminatedString⟩ := by
  have hkind : kind = .literalString := by
    by_contra hne
    obtain ⟨w, rfl⟩ := h.eq_singleton hne
    rw [List.length_singleton] at hk
    omega
  subst hkind
  obtain ⟨word, rest, rfl⟩ := List.exists_cons_of_ne_nil (ne_nil_of_map_eq_take hpos hk hws)
  cases h with
  | string hstring =>
    dsimp only [read]
    rw [if_pos rfl, hstring.read?_take hk hws]
  | enumerant henum => contradiction

/-- Operands of which some words are missing are not read. Either the words end before an operand,
or in one, which is a string. -/
theorem Operand.exists_readAll_take {f : Format} {left k : Nat} {p : Progress}
    {os : List Operand} {loaded : List Word} (truncated : Diagnostic) (position : Nat)
    (h : p.Accepts g f os) (hleft : (os.flatMap words).length = left) (hk : k < left)
    (hws : loaded.map order.fix = (os.flatMap words).take k) :
    ∃ d, readAll g order f truncated left position loaded p = .error d ∧
      (d = truncated ∨ position ≤ d.position ∧ d.position < position + k) := by
  induction os generalizing left position k p loaded with
  | nil =>
    rw [List.flatMap_nil, List.length_nil] at hleft
    omega
  | cons o os ih =>
    obtain ⟨hkind, hshows, hos⟩ := h
    rw [List.flatMap_cons] at hws hleft
    rw [List.length_append, length_words] at hleft
    obtain ⟨left, rfl⟩ : ∃ n, left = n + 1 := ⟨left - 1, by omega⟩
    by_cases hfit : o.words.length ≤ k
    · -- the operand is there, and the cut is behind it
      rw [List.take_append, List.take_of_length_le hfit] at hws
      have hdrop : (loaded.drop o.words.length).map order.fix =
          (os.flatMap words).take (k - o.words.length) := by
        rw [List.map_drop, hws, List.drop_left]
      have hlen : (os.flatMap words).length = left - o.more.length := by omega
      have hlt : k - o.words.length < left - o.more.length := by
        rw [length_words] at hfit ⊢
        omega
      rw [readAll_succ hkind hshows hws]
      obtain ⟨d, hd, hposition⟩ := ih (position + 1 + o.more.length) hos hlen hlt hdrop
      refine ⟨d, hd, hposition.imp_right fun hinside => ?_⟩
      rw [length_words] at hfit hinside
      omega
    · rw [Nat.not_le] at hfit
      rw [List.take_append_of_le_length (Nat.le_of_lt hfit)] at hws
      cases k with
      | zero =>
        rw [List.take_zero, List.map_eq_nil_iff] at hws
        subst hws
        rw [readAll]
        exact ⟨truncated, rfl, .inl rfl⟩
      | succ k =>
        have hread : read g order f.opcode p.imported o.kind position loaded =
            .error ⟨position, none, .unterminatedString⟩ :=
          read_take hshows (Nat.succ_pos k) hfit hws
        obtain ⟨word, rest, rfl⟩ :=
          List.exists_cons_of_ne_nil (ne_nil_of_map_eq_take (Nat.succ_pos k) hfit hws)
        have hfirst : order.fix word = o.first := (List.cons.inj hws).1
        exact ⟨_, readAll_of_read_eq_error hfirst hkind hread, .inr ⟨Nat.le_refl _, by simp⟩⟩

namespace Instruction

variable {imported : Option ExtInstSet}

/-- An instruction of which some words are left and others are missing is not read, and the failure
lies in the words that are left. -/
theorem exists_read_take {i : Instruction} {own loaded : List Word} {position k : Nat}
    (h : Written g imported i own) (hpos : 0 < k) (hk : k < own.length)
    (hws : loaded.map order.fix = own.take k) :
    ∃ d, read g order imported position loaded = .error d ∧
      position ≤ d.position ∧ d.position < position + k := by
  cases h with
  | @intro first f os _ hf hleast hcount hos =>
    obtain ⟨k, rfl⟩ : ∃ n, k = n + 1 := ⟨k - 1, by omega⟩
    rw [List.take_succ_cons] at hws
    obtain ⟨word, loaded, rfl, rfl, hrest⟩ := List.map_eq_cons_iff.mp hws
    have hleft : (os.flatMap Operand.words).length = (order.fix word).wordCount - 1 := by omega
    have hlt : k < (order.fix word).wordCount - 1 := by
      rw [List.length_cons] at hk
      omega
    obtain ⟨d, hd, hposition⟩ := Operand.exists_readAll_take
      ⟨position, some (order.fix word), .truncatedInstruction f.opcode⟩
      (position + 1) (Operand.Progress.accepts_iff_fits.mpr hos) hleft hlt hrest
    refine ⟨d, ?_, ?_⟩
    · dsimp only [read]
      rw [hf]
      dsimp only
      rw [if_neg (Nat.not_lt.mpr hleast), hd]
    · rcases hposition with rfl | hinside
      · exact ⟨Nat.le_refl _, by simp⟩
      · omega

/-- The place behind an instruction. -/
def stop (i : Instruction) : Nat := i.position + i.wordCount

theorem Written.stop_eq {i : Instruction} {own : List Word} (h : Written g imported i own) :
    i.stop = i.position + own.length := by
  rw [stop, h.length_eq]

end Instruction

open Instruction

/-! ## Cut code -/

/-- `EndsAt start is n`: at `n` ends one of the instructions `is`, or the first of them begins
there, which is at `start`. -/
def EndsAt (start : Nat) (is : List Instruction) (n : Nat) : Prop :=
  n = start ∨ ∃ i ∈ is, i.stop = n

instance (start : Nat) (is : List Instruction) (n : Nat) : Decidable (EndsAt start is n) :=
  inferInstanceAs (Decidable (_ ∨ _))

theorem endsAt_cons {start n : Nat} {i : Instruction} {is : List Instruction} :
    EndsAt start (i :: is) n ↔ n = start ∨ EndsAt i.stop is n := by
  simp [EndsAt, eq_comm]

/-- Every instruction ends behind the place where the first begins. -/
theorem Code.lt_stop {position : Nat} {imported : Option ExtInstSet} {is : List Instruction}
    {ws : List Word} (h : Code g position imported is ws) : ∀ i ∈ is, position < i.stop := by
  induction h with
  | nil => simp
  | cons hposition hi _ ih =>
    have hpos := List.length_pos_iff.mpr hi.ne_nil
    have hstop := hi.stop_eq
    intro i' hi'
    rcases List.mem_cons.mp hi' with rfl | hi'
    · omega
    · have := ih i' hi'
      omega

theorem Code.le_of_endsAt {position n : Nat} {imported : Option ExtInstSet}
    {is : List Instruction} {ws : List Word} (h : Code g position imported is ws)
    (hends : EndsAt position is n) : position ≤ n := by
  rcases hends with rfl | ⟨i, hi, rfl⟩
  · exact Nat.le_refl n
  · exact Nat.le_of_lt (h.lt_stop i hi)

namespace Cursor

/-- Nothing is read at an instruction that is cut short. -/
theorem exists_stops_take {c : Cursor} (hlive : c.failed = false) {i : Instruction}
    {own : List Word} {k : Nat} (h : Written g c.imported i own) (hpos : 0 < k)
    (hk : k < own.length) (hws : c.rest.map c.order.fix = own.take k) :
    ∃ d, Stops g c (some d) ∧ c.position ≤ d.position ∧ d.position < c.position + k := by
  obtain ⟨d, hread, hinside⟩ := exists_read_take h hpos hk hws
  refine ⟨d, ?_, hinside⟩
  have hne : c.rest.isEmpty = false :=
    List.isEmpty_eq_false_iff.mpr (ne_nil_of_map_eq_take hpos hk hws)
  unfold Stops next
  rw [hlive, hne, Bool.or_self, if_neg Bool.false_ne_true]
  dsimp only
  rw [hread]
  rfl

/-- **The items of code that is cut short.** If the cut is where an instruction ends, these are the
instructions before it. Otherwise it is inside of one, and there is a failure in what is left of
that instruction. -/
theorem items_take {c : Cursor} (hlive : c.failed = false) {is : List Instruction}
    {ws : List Word} (h : Code g c.position c.imported is ws) {k n : Nat}
    (hn : c.position + k = n) (hk : k ≤ ws.length) (hws : c.rest.map c.order.fix = ws.take k) :
    EndsAt c.position is n ∧ c.items g = (is.filter (·.stop ≤ n)).map .ok ∨
      ¬ EndsAt c.position is n ∧ ∃ i ∈ is, ∃ d,
        c.items g = (is.filter (·.stop ≤ n)).map .ok ++ [.error d] ∧
          i.position < n ∧ n < i.stop ∧ i.position ≤ d.position ∧ d.position < n := by
  generalize hposition : c.position = position at h
  generalize himported : c.imported = imported at h
  induction h generalizing c k with
  | nil =>
    refine .inl ⟨.inl ?_, ?_⟩
    · rw [List.length_nil] at hk
      omega
    · rw [List.take_nil, List.map_eq_nil_iff] at hws
      exact items_eq_nil_iff.mpr (next_eq_none_iff.mpr (.inr hws))
  | @cons position imported i own is rest hi hwritten his ih =>
    have hstop : i.stop = position + own.length := hi ▸ hwritten.stop_eq
    have hlater := his.lt_stop
    have hpos := List.length_pos_iff.mpr hwritten.ne_nil
    rw [List.length_append] at hk
    rw [endsAt_cons]
    by_cases hfit : own.length ≤ k
    · -- the first instruction is read, and the cut is behind it
      rw [List.take_append, List.take_of_length_le hfit] at hws
      have hdrop : (c.rest.drop own.length).map c.order.fix = rest.take (k - own.length) := by
        rw [List.map_drop, hws, List.drop_left]
      obtain ⟨c', hnext, hlive', hrest', hposition', himported'⟩ :
          ∃ c', c.next g = some (.ok i, c') ∧ c'.failed = false ∧
            c'.rest.map c'.order.fix = rest.take (k - own.length) ∧
            c'.position = position + own.length ∧ c'.imported = i.selected g imported :=
        ⟨_, next_eq_ok_iff.mpr ⟨hlive, own, _, hws, himported ▸ hwritten,
          hi.trans hposition.symm, rfl⟩, hlive, hdrop, by rw [hposition], by rw [himported]⟩
      have hn' : c'.position + (k - own.length) = n := by omega
      have hkept : (i :: is).filter (·.stop ≤ n) = i :: is.filter (·.stop ≤ n) :=
        List.filter_cons_of_pos (by rw [decide_eq_true_eq]; omega)
      have hstart : n ≠ position := by omega
      rw [items_of_next hnext, hkept, List.map_cons, hstop]
      rcases ih hlive' hn' (by omega) hrest' hposition' himported' with
        ⟨hends, hitems⟩ | ⟨hends, i', hi', d, hitems, hinside⟩
      · exact .inl ⟨.inr hends, by rw [hitems]⟩
      · refine .inr ⟨not_or.mpr ⟨hstart, hends⟩, i', List.mem_cons_of_mem i hi', d, ?_, hinside⟩
        rw [hitems, List.cons_append]
    · rw [Nat.not_le] at hfit
      rw [List.take_append_of_le_length (Nat.le_of_lt hfit)] at hws
      have hnone : (i :: is).filter (·.stop ≤ n) = [] := by
        rw [List.filter_eq_nil_iff]
        intro i' hi'
        rw [decide_eq_true_eq, Nat.not_le]
        rcases List.mem_cons.mp hi' with rfl | hi'
        · omega
        · have := hlater i' hi'
          omega
      rw [hnone]
      cases k with
      | zero =>
        rw [List.take_zero, List.map_eq_nil_iff] at hws
        exact .inl ⟨.inl (by omega), items_eq_nil_iff.mpr (next_eq_none_iff.mpr (.inr hws))⟩
      | succ k =>
        have hbetween : n < i.stop := by omega
        have hlast : ¬ (n = position ∨ EndsAt i.stop is n) := by
          rintro (hn | hn | ⟨i', hi', hn⟩)
          · omega
          · omega
          · have := hlater i' hi'
            omega
        obtain ⟨d, hstops, hinside⟩ :=
          exists_stops_take hlive (himported ▸ hwritten) (Nat.succ_pos k) hfit hws
        exact .inr ⟨hlast, i, List.mem_cons_self, d, hstops.items_eq, by omega⟩

end Cursor

/-! ## Cut modules -/

open Cursor

/-- **Truncation is noticed.** Of a module that can be read to its end, the first words can be read
to their end exactly if they are the header alone or end where an instruction does. What is read are
the instructions that end there or before. If the words end inside an instruction, these are
followed by a failure that lies in what is left of it; if they end inside the header, there is no
module. The listing fails for the same reason. -/
theorem truncation_noticed (g : Grammar) (p : Palette) {words : List Word} {m : Module}
    (hm : (Module.ofWords words).outcome = .ok m) {is : List Instruction}
    (his : (first m).items g = is.map .ok) {n : Nat} (hn : n < words.length) :
    let cut := (Module.ofWords (words.take n)).outcome
    let listing := (disassemble g p (words.take n)).outcome
    let kept := is.filter (·.stop ≤ n)
    ((∃ m', ∃ js : List Instruction, cut = .ok m' ∧ (first m').items g = js.map .ok) ↔
      EndsAt Header.size is n) ∧
    ((∃ text, listing = .ok text) ↔ EndsAt Header.size is n) ∧
    (n < Header.size → ∃ d, cut = .error d ∧ listing = .error (.invalidBinary d)) ∧
    (Header.size ≤ n → ∃ m', cut = .ok m' ∧ m'.header = m.header ∧
      (EndsAt Header.size is n → (first m').items g = kept.map .ok ∧
        listing = .ok (Listing.text g p m.header kept)) ∧
      (¬ EndsAt Header.size is n → ∃ i ∈ is, ∃ d,
        (first m').items g = kept.map .ok ++ [.error d] ∧ listing = .error (.invalidBinary d) ∧
        i.position < n ∧ n < i.stop ∧ i.position ≤ d.position ∧ d.position < n)) := by
  intro cut listing kept
  have hcode : Code g Header.size none is (m.code.map m.order.fix) :=
    (items_eq_map_ok_iff rfl).mp his
  by_cases hsize : n < Header.size
  · obtain ⟨d, hd⟩ : ∃ d, cut = .error d := by
      refine Module.exists_error_of_length_lt ?_
      rw [List.length_take]
      omega
    have hlisting : listing = .error (.invalidBinary d) := disassemble_outcome_of_error hd
    have hends : ¬ EndsAt Header.size is n := by
      intro h
      exact Nat.not_le_of_lt hsize (hcode.le_of_endsAt h)
    refine ⟨iff_of_false ?_ hends, iff_of_false ?_ hends, fun _ => ⟨d, hd, hlisting⟩,
      fun h => absurd hsize (Nat.not_lt.mpr h)⟩
    · rintro ⟨m', js, hm', -⟩
      rw [hd] at hm'
      contradiction
    · rintro ⟨text, htext⟩
      rw [hlisting] at htext
      contradiction
  · obtain ⟨k, rfl⟩ := Nat.exists_eq_add_of_le (Nat.le_of_not_lt hsize)
    have hcut : cut = .ok { m with code := m.code.take k } := Module.ofWords_take hm k
    have hk : k ≤ (m.code.map m.order.fix).length := by
      have hlen := Module.length_eq hm
      rw [List.length_map]
      omega
    rcases items_take (c := first { m with code := m.code.take k }) rfl hcode rfl hk
      List.map_take with ⟨hends, hitems⟩ | ⟨hends, i, hi, d, hitems, hinside⟩
    · have hlisting : listing = .ok (Listing.text g p m.header kept) :=
        disassemble_outcome_ok hcut hitems
      exact ⟨iff_of_true ⟨_, kept, hcut, hitems⟩ hends, iff_of_true ⟨_, hlisting⟩ hends,
        fun h => absurd h hsize,
        fun _ => ⟨_, hcut, rfl, fun _ => ⟨hitems, hlisting⟩, fun h => absurd hends h⟩⟩
    · have hlisting : listing = .error (.invalidBinary d) :=
        disassemble_outcome_error hcut hitems
      refine ⟨iff_of_false ?_ hends, iff_of_false ?_ hends, fun h => absurd h hsize,
        fun _ => ⟨_, hcut, rfl, fun h => absurd h hends,
          fun _ => ⟨i, hi, d, hitems, hlisting, hinside⟩⟩⟩
      · rintro ⟨m', js, hm', hjs⟩
        rw [hcut] at hm'
        cases hm'
        have hmem : Except.error d ∈ js.map Except.ok := by
          rw [← hjs, hitems]
          exact List.mem_append_right _ (List.mem_singleton_self _)
        simp at hmem
      · rintro ⟨text, htext⟩
        rw [hlisting] at htext
        contradiction

/-- A module of two instructions is cut inside its header, behind the first instruction, and in the
string of the second, before the word with the nul. -/
theorem truncation_noticed_string :
    let words := [magicNumber, 0x00010000, 0, 5, 0, 0x00020011, 1,
      0x00050005, 1, 0x64636261, 0x68676665, 0]
    10 < words.length ∧ ∃ (m : Module) (i j : Instruction),
      (Module.ofWords words).outcome = .ok m ∧ (first m).items .core = [i, j].map .ok ∧
      (∃ d, (Module.ofWords (words.take 3)).outcome = .error d) ∧
      (∃ m', (Module.ofWords (words.take 7)).outcome = .ok m' ∧
        (first m').items .core = [i].map .ok) ∧
      ∃ m' d, (Module.ofWords (words.take 10)).outcome = .ok m' ∧
        (first m').items .core = [i].map .ok ++ [.error d] ∧
        7 ≤ d.position ∧ d.position < 10 := by
  intro words
  have hlen : 10 < words.length := by decide
  have hm : (Module.ofWords words).outcome = .ok ⟨.little, .ofBound 5, words.drop 5⟩ := rfl
  obtain ⟨i, j, his, hi, hj, hstop⟩ : ∃ i j : Instruction,
      (first ⟨.little, .ofBound 5, words.drop 5⟩).items .core = [i, j].map .ok ∧
        i.stop = 7 ∧ j.position = 7 ∧ j.stop = 12 := by
    refine ⟨⟨.opCapability, 5, 2, none, [⟨.capability, 1, [], ⟨none, "Shader"⟩⟩]⟩,
      ⟨.opName, 7, 5, none, [⟨.id, 1, [], ⟨some .id, "%1"⟩⟩,
        ⟨.literalString, 0x64636261, [0x68676665, 0], ⟨some .string, "abcdefgh"⟩⟩]⟩, ?_⟩
    decide +kernel
  have hkept : ∀ n, 7 ≤ n → n < 12 → [i, j].filter (·.stop ≤ n) = [i] := by
    intro n hle hlt
    simp [hi, hstop, hle, hlt]
  refine ⟨hlen, _, i, j, hm, his, ?_, ?_, ?_⟩
  · obtain ⟨-, -, hheader, -⟩ :=
      truncation_noticed .core .plain hm his (show 3 < words.length by decide)
    obtain ⟨d, hd, -⟩ := hheader (by decide)
    exact ⟨d, hd⟩
  · have hends : EndsAt Header.size [i, j] 7 := .inr ⟨i, List.mem_cons_self, hi⟩
    obtain ⟨-, -, -, hcut⟩ :=
      truncation_noticed .core .plain hm his (show 7 < words.length by decide)
    obtain ⟨m', hm', -, hbehind, -⟩ := hcut (by decide)
    have hitems := (hbehind hends).1
    rw [hkept 7 (by decide) (by decide)] at hitems
    exact ⟨m', hm', hitems⟩
  · have hends : ¬ EndsAt Header.size [i, j] 10 := by
      rw [endsAt_cons, endsAt_cons, hi, hstop]
      decide
    obtain ⟨-, -, -, hcut⟩ := truncation_noticed .core .plain hm his hlen
    obtain ⟨m', hm', -, -, hinside⟩ := hcut (by decide)
    obtain ⟨i', hi', d, hitems, -, hbefore, hafter, hposition⟩ := hinside hends
    rw [hkept 10 (by decide) (by decide)] at hitems
    -- of the two instructions only the second is around the cut
    have hname : i' = j := by
      rcases List.mem_pair.mp hi' with rfl | rfl
      · omega
      · rfl
    subst hname
    exact ⟨m', d, hm', hitems, by omega, hposition.2⟩

end Spirv

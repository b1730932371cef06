import Spirv.Proofs.Utf8

/-!
# Bytes that are no UTF-8

What any bytes are read as, said on the bytes.

- `Part`: the bytes of a character are read as that character. A piece of a character that cannot
  go on with what follows it, and a byte that starts no character, are read as one replacement
  character each. Pieces are as long as they can be.
- `Lossy`: bytes and their text, part by part. A text is determined by the bytes (`Lossy.unique`).
- `Awaits`: the bytes that have been read of a character go on exactly as the machine expects. So it
  is behind a first byte (`Awaits.first`) and behind every byte that is expected (`Awaits.concat`).
- `lossy_iff`: the machine reads any bytes as that text.
-/

namespace Spirv.Utf8

/-! ## Parts -/

/-- The bytes start a character, which may end with them. -/
def Begins (bytes : List UInt8) : Prop := ∃ c, bytes <+: String.utf8EncodeChar c

/-- `Part piece rest c`: where `rest` stands behind it, `piece` is read by itself, and as `c`. -/
inductive Part : List UInt8 → List UInt8 → Char → Prop
  /-- All bytes of a character. -/
  | char (c : Char) (rest : List UInt8) : Part (String.utf8EncodeChar c) rest c
  /-- Some bytes of a character. With one byte more they start none. -/
  | cut {piece rest : List UInt8} {c : Char} (hne : piece ≠ [])
      (hpiece : piece <+: String.utf8EncodeChar c) (hcut : piece ≠ String.utf8EncodeChar c)
      (hrest : ∀ b ∈ rest.head?, ¬ Begins (piece ++ [b])) : Part piece rest replacement
  /-- A byte that starts no character. -/
  | stray {b : UInt8} (rest : List UInt8) (hb : ¬ Begins [b]) : Part [b] rest replacement

/-- `Lossy bytes cs`: read part by part, the bytes are the characters `cs`. -/
inductive Lossy : List UInt8 → List Char → Prop
  | nil : Lossy [] []
  | cons {piece rest : List UInt8} {c : Char} {cs : List Char} (hpart : Part piece rest c)
      (hrest : Lossy rest cs) : Lossy (piece ++ rest) (c :: cs)

/-- The bytes of a character are not the start of those of another one. -/
theorem eq_of_prefix_encodeChar {c c' : Char}
    (h : String.utf8EncodeChar c <+: String.utf8EncodeChar c') : c = c' := by
  obtain ⟨more, hmore⟩ := h
  have hdecode := ByteArray.utf8DecodeChar?_utf8EncodeChar_append (b := more.toByteArray) (c := c)
  have hdecode' := ByteArray.utf8DecodeChar?_utf8EncodeChar_append (b := .empty) (c := c')
  rw [← List.toByteArray_append, hmore] at hdecode
  rw [ByteArray.append_empty, hdecode] at hdecode'
  exact Option.some.inj hdecode'

theorem Begins.mono {bytes bytes' : List UInt8} (h : Begins bytes') (hp : bytes <+: bytes') :
    Begins bytes := by
  obtain ⟨c, hc⟩ := h
  exact ⟨c, hp.trans hc⟩

theorem not_begins_encodeChar_concat (c : Char) (b : UInt8) :
    ¬ Begins (String.utf8EncodeChar c ++ [b]) := by
  rintro ⟨c', hc'⟩
  obtain rfl := eq_of_prefix_encodeChar ((List.prefix_append _ [b]).trans hc')
  have hlen := hc'.length_le
  rw [List.length_append, List.length_singleton] at hlen
  omega

theorem Part.ne_nil {piece rest : List UInt8} {c : Char} (h : Part piece rest c) : piece ≠ [] := by
  cases h with
  | char c => exact String.utf8EncodeChar_ne_nil
  | cut hne => exact hne
  | stray => exact List.cons_ne_nil _ _

/-- A part cannot be made longer. -/
theorem Part.not_begins {piece rest : List UInt8} {c : Char} {b : UInt8}
    (h : Part piece (b :: rest) c) : ¬ Begins (piece ++ [b]) := by
  cases h with
  | char => exact not_begins_encodeChar_concat c b
  | cut _ _ _ hrest => exact hrest b rfl
  | stray _ hb => exact fun hmore => hb (hmore.mono (List.prefix_append _ _))

/-- A part of more than one byte starts a character. -/
theorem Part.begins {piece rest : List UInt8} {c : Char} (h : Part piece rest c)
    (hlen : 1 < piece.length) : Begins piece := by
  cases h with
  | char => exact ⟨c, List.prefix_rfl⟩
  | cut _ hpiece => exact ⟨_, hpiece⟩
  | stray => exact absurd hlen (Nat.lt_irrefl 1)

theorem Part.eq_nil_of_append {piece more rest : List UInt8} {c c' : Char}
    (h : Part piece (more ++ rest) c) (h' : Part (piece ++ more) rest c') : more = [] := by
  cases more with
  | nil => rfl
  | cons b more =>
    have hlen : 1 < (piece ++ b :: more).length := by
      have hpos := List.length_pos_iff.mpr h.ne_nil
      rw [List.length_append, List.length_cons]
      omega
    have hstart : piece ++ [b] <+: piece ++ b :: more :=
      ⟨more, by rw [List.append_assoc, List.singleton_append]⟩
    exact absurd ((h'.begins hlen).mono hstart) h.not_begins

/-- The bytes of a character are that character. -/
theorem Part.eq_of_encodeChar {rest : List UInt8} {c d : Char}
    (h : Part (String.utf8EncodeChar d) rest c) : c = d := by
  generalize hpiece : String.utf8EncodeChar d = piece at h
  cases h with
  | char => exact (eq_of_prefix_encodeChar (hpiece ▸ List.prefix_rfl)).symm
  | cut _ hstart hcut =>
    subst hpiece
    exact absurd (congrArg _ (eq_of_prefix_encodeChar hstart)) hcut
  | stray _ hb => exact absurd ⟨d, hpiece ▸ List.prefix_rfl⟩ hb

/-- All else is a replacement character. -/
theorem Part.eq_replacement {piece rest : List UInt8} {c : Char} (h : Part piece rest c)
    (hpiece : ∀ d, piece ≠ String.utf8EncodeChar d) : c = replacement := by
  cases h with
  | char => exact absurd rfl (hpiece c)
  | cut => rfl
  | stray => rfl

/-- Bytes start with one part only. -/
theorem Part.unique {piece piece' rest rest' : List UInt8} {c c' : Char} (h : Part piece rest c)
    (h' : Part piece' rest' c') (hbytes : piece ++ rest = piece' ++ rest') :
    piece = piece' ∧ rest = rest' ∧ c = c' := by
  have hpiece : piece = piece' := by
    rcases List.append_eq_append_iff.mp hbytes with ⟨more, rfl, rfl⟩ | ⟨more, rfl, rfl⟩
    · rw [h.eq_nil_of_append h', List.append_nil]
    · rw [h'.eq_nil_of_append h, List.append_nil]
  subst hpiece
  obtain rfl : rest = rest' := List.append_cancel_left hbytes
  refine ⟨rfl, rfl, ?_⟩
  by_cases hchar : ∃ d, piece = String.utf8EncodeChar d
  · obtain ⟨d, rfl⟩ := hchar
    rw [h.eq_of_encodeChar, h'.eq_of_encodeChar]
  · rw [not_exists] at hchar
    rw [h.eq_replacement hchar, h'.eq_replacement hchar]

/-- **The text of any bytes** is determined by them. -/
theorem Lossy.unique {bytes : List UInt8} {cs cs' : List Char} (h : Lossy bytes cs)
    (h' : Lossy bytes cs') : cs = cs' := by
  induction h generalizing cs' with
  | nil =>
    generalize hbytes : ([] : List UInt8) = bytes at h'
    cases h' with
    | nil => rfl
    | cons hpart => exact absurd (List.append_eq_nil_iff.mp hbytes.symm).1 hpart.ne_nil
  | @cons piece rest c cs hpart _ ih =>
    generalize hbytes : piece ++ rest = bytes at h'
    cases h' with
    | nil => exact absurd (List.append_eq_nil_iff.mp hbytes).1 hpart.ne_nil
    | cons hpart' hrest' =>
      obtain ⟨-, rfl, rfl⟩ := hpart.unique hpart' hbytes
      rw [ih hrest']

/-! ## Characters from bytes -/

/-- A byte that is not the first one of its character. -/
def Continues (b : UInt8) : Prop := 0x80 ≤ b.toNat ∧ b.toNat ≤ 0xBF

/-- `p.Fits bytes`: the bytes are all that is due of the character under way. -/
def Pending.Fits (p : Pending) : List UInt8 → Prop
  | [] => False
  | b :: more =>
    (p.low ≤ b.toNat ∧ b.toNat ≤ p.high) ∧ more.length + 1 = p.due ∧ ∀ b ∈ more, Continues b

theorem exists_val_eq {v : Nat} (h : v < 0xD800 ∨ 0xDFFF < v ∧ v < 0x110000) :
    ∃ c : Char, c.val.toNat = v :=
  ⟨.ofNatAux v h, rfl⟩

theorem ofNat_eq {n : Nat} {b : UInt8} (h : n = b.toNat) : UInt8.ofNat n = b := by
  rw [h, UInt8.ofNat_toNat]

theorem exists_encodeChar_two {b b₁ : UInt8} (hlo : 0xC2 ≤ b.toNat) (hhi : b.toNat ≤ 0xDF)
    (h₁ : Continues b₁) : ∃ c, String.utf8EncodeChar c = [b, b₁] := by
  unfold Continues at h₁
  obtain ⟨c, hc⟩ := exists_val_eq (v := (b.toNat - 0xC0) * 0x40 + (b₁.toNat - 0x80)) (by omega)
  refine ⟨c, ?_⟩
  unfold String.utf8EncodeChar
  dsimp only
  rw [hc, if_neg (by omega), if_pos (by omega), ofNat_eq (b := b) (by omega),
    ofNat_eq (b := b₁) (by omega)]

theorem exists_encodeChar_three {b b₁ b₂ : UInt8} (hlo : 0xE0 ≤ b.toNat) (hhi : b.toNat ≤ 0xEF)
    (h₁ : Continues b₁) (hE0 : b.toNat = 0xE0 → 0xA0 ≤ b₁.toNat)
    (hED : b.toNat = 0xED → b₁.toNat ≤ 0x9F) (h₂ : Continues b₂) :
    ∃ c, String.utf8EncodeChar c = [b, b₁, b₂] := by
  unfold Continues at h₁ h₂
  obtain ⟨c, hc⟩ := exists_val_eq (v := (b.toNat - 0xE0) * 0x1000 + (b₁.toNat - 0x80) * 0x40 +
    (b₂.toNat - 0x80)) (by omega)
  refine ⟨c, ?_⟩
  unfold String.utf8EncodeChar
  dsimp only
  rw [hc, if_neg (by omega), if_neg (by omega), if_pos (by omega), ofNat_eq (b := b) (by omega),
    ofNat_eq (b := b₁) (by omega), ofNat_eq (b := b₂) (by omega)]

theorem exists_encodeChar_four {b b₁ b₂ b₃ : UInt8} (hlo : 0xF0 ≤ b.toNat) (hhi : b.toNat ≤ 0xF4)
    (h₁ : Continues b₁) (hF0 : b.toNat = 0xF0 → 0x90 ≤ b₁.toNat)
    (hF4 : b.toNat = 0xF4 → b₁.toNat ≤ 0x8F) (h₂ : Continues b₂) (h₃ : Continues b₃) :
    ∃ c, String.utf8EncodeChar c = [b, b₁, b₂, b₃] := by
  unfold Continues at h₁ h₂ h₃
  obtain ⟨c, hc⟩ := exists_val_eq (v := (b.toNat - 0xF0) * 0x40000 + (b₁.toNat - 0x80) * 0x1000 +
    (b₂.toNat - 0x80) * 0x40 + (b₃.toNat - 0x80)) (by omega)
  refine ⟨c, ?_⟩
  unfold String.utf8EncodeChar
  dsimp only
  rw [hc, if_neg (by omega), if_neg (by omega), if_neg (by omega), ofNat_eq (b := b) (by omega),
    ofNat_eq (b := b₁) (by omega), ofNat_eq (b := b₂) (by omega), ofNat_eq (b := b₃) (by omega)]

/-! ## First bytes -/

/-- The character of a byte that is one by itself. -/
theorem encodeChar_ofNat {b : UInt8} (h : b.toNat ≤ 0x7F) :
    String.utf8EncodeChar (.ofNat b.toNat) = [b] := by
  have hv : (Char.ofNat b.toNat).val.toNat = b.toNat := by
    rw [Char.ofNat, dif_pos (by omega)]
    rfl
  unfold String.utf8EncodeChar
  dsimp only
  rw [hv, if_pos h, UInt8.ofNat_toNat]

/-- The first byte of a character: it is all of it, or the others fit. -/
theorem start_of_encodeChar (text : String) {c : Char} {b : UInt8} {more : List UInt8}
    (h : String.utf8EncodeChar c = b :: more) :
    b.toNat ≤ 0x7F ∧ more = [] ∨ ∃ p, start text b.toNat = ⟨text, some p⟩ ∧ p.Fits more := by
  have hvalid : c.val.toNat < 0xD800 ∨ 0xDFFF < c.val.toNat ∧ c.val.toNat < 0x110000 := c.valid
  have hcontinues : ∀ n, Continues (.ofNat (n % 0x40 + 0x80)) := by
    intro n
    rw [Continues, toNat_continuation]
    omega
  unfold String.utf8EncodeChar at h
  generalize c.val.toNat = v at hvalid h
  dsimp only at h
  by_cases h1 : v ≤ 0x7F
  · rw [if_pos h1] at h
    obtain ⟨rfl, rfl⟩ := List.cons.inj h
    exact .inl ⟨by rw [UInt8.toNat_ofNat']; omega, rfl⟩
  rw [if_neg h1] at h
  by_cases h2 : v ≤ 0x7FF
  · rw [if_pos h2] at h
    obtain ⟨rfl, rfl⟩ := List.cons.inj h
    have hstart := start_two text (by omega) h2
    rw [← step_first text (by omega)] at hstart
    exact .inr ⟨_, hstart, hcontinues v, rfl, List.forall_mem_nil _⟩
  rw [if_neg h2] at h
  by_cases h3 : v ≤ 0xFFFF
  · rw [if_pos h3] at h
    obtain ⟨rfl, rfl⟩ := List.cons.inj h
    obtain ⟨low, high, hstart, hrange⟩ := start_three text (by omega) h3 (by omega)
    rw [← toNat_continuation] at hrange
    rw [← step_first text (by omega)] at hstart
    exact .inr ⟨_, hstart, hrange, rfl, List.forall_mem_singleton.mpr (hcontinues v)⟩
  · rw [if_neg h3] at h
    obtain ⟨rfl, rfl⟩ := List.cons.inj h
    have hmax : v < 0x110000 := by omega
    obtain ⟨low, high, hstart, hrange⟩ := start_four text (Nat.lt_of_not_le h3) hmax
    rw [← toNat_continuation] at hrange
    rw [← step_first text (by omega)] at hstart
    refine .inr ⟨_, hstart, hrange, rfl, List.forall_mem_cons.mpr ⟨hcontinues _, ?_⟩⟩
    exact List.forall_mem_singleton.mpr (hcontinues v)

/-- What is expected behind a first byte. -/
theorem start_inv {text : String} {n : Nat} {p : Pending} (h : start text n = ⟨text, some p⟩) :
    0x80 ≤ p.low ∧ p.low ≤ p.high ∧ p.high ≤ 0xBF ∧
      (p.due = 1 ∧ 0xC2 ≤ n ∧ n ≤ 0xDF ∨
        p.due = 2 ∧ 0xE0 ≤ n ∧ n ≤ 0xEF ∧
          (n = 0xE0 → 0xA0 ≤ p.low) ∧ (n = 0xED → p.high ≤ 0x9F) ∨
        p.due = 3 ∧ 0xF0 ≤ n ∧ n ≤ 0xF4 ∧
          (n = 0xF0 → 0x90 ≤ p.low) ∧ (n = 0xF4 → p.high ≤ 0x8F)) := by
  unfold start at h
  split at h
  · cases (State.mk.inj h).2
  repeat
    split at h
    · obtain rfl := Option.some.inj (State.mk.inj h).2
      dsimp only
      omega
  cases (State.mk.inj h).2

/-- What fits behind a first byte makes a character of it. -/
theorem exists_encodeChar_of_start {text : String} {b : UInt8} {p : Pending}
    (h : start text b.toNat = ⟨text, some p⟩) {more : List UInt8} (hfits : p.Fits more) :
    ∃ c, String.utf8EncodeChar c = b :: more := by
  obtain ⟨hlow, hle, hhigh, hdue⟩ := start_inv h
  match more, hfits with
  | b₁ :: more, ⟨hb₁, hlen, hmore⟩ =>
    have h₁ : Continues b₁ := ⟨by omega, by omega⟩
    rcases hdue with ⟨hone, hb⟩ | ⟨htwo, hb⟩ | ⟨hthree, hb⟩
    · obtain rfl : more = [] := List.length_eq_zero_iff.mp (by omega)
      exact exists_encodeChar_two hb.1 hb.2 h₁
    · obtain ⟨b₂, rfl⟩ := List.length_eq_one_iff.mp (show more.length = 1 by omega)
      exact exists_encodeChar_three hb.1 hb.2.1 h₁ (by omega) (by omega)
        (List.forall_mem_singleton.mp hmore)
    · have hlen2 : more.length = 2 := by omega
      match more, hlen2 with
      | [b₂, b₃], _ =>
        rw [List.forall_mem_cons, List.forall_mem_singleton] at hmore
        exact exists_encodeChar_four hb.1 hb.2.1 h₁ (by omega) (by omega) hmore.1 hmore.2

/-- A first byte is a character, or the machine expects more, or it is replaced. -/
theorem start_cases (text : String) (n : Nat) :
    n ≤ 0x7F ∧ start text n = ⟨text.push (.ofNat n), none⟩ ∨
      (∃ p, start text n = ⟨text, some p⟩) ∨
      0x7F < n ∧ start text n = ⟨text.push replacement, none⟩ := by
  unfold start
  split
  case isTrue hn => exact .inl ⟨hn, rfl⟩
  case isFalse hn =>
    refine .inr ?_
    repeat
      split
      · exact .inl ⟨_, rfl⟩
    exact .inr ⟨Nat.lt_of_not_le hn, rfl⟩

/-! ## The machine inside a character -/

/-- The machine has read `piece` behind `text`, and `p` is all that it has to know of it: the bytes
that `p` fits are those that make a character of it. -/
structure Awaits (text : String) (piece : List UInt8) (p : Pending) : Prop where
  ne_nil : piece ≠ []
  foldl_eq : piece.foldl step ⟨text, none⟩ = ⟨text, some p⟩
  fits_iff : ∀ more, (∃ c, String.utf8EncodeChar c = piece ++ more) ↔ p.Fits more
  due_pos : 0 < p.due
  low_le : p.low ≤ p.high
  high_le : p.high ≤ 0xBF

namespace Awaits

variable {text : String} {piece : List UInt8} {p : Pending}

/-- Behind a first byte. -/
theorem first {b : UInt8} (h : start text b.toNat = ⟨text, some p⟩) : Awaits text [b] p := by
  obtain ⟨-, hlow, hhigh, hdue⟩ := start_inv h
  refine ⟨List.cons_ne_nil _ _, h, fun more => ⟨?_, exists_encodeChar_of_start h⟩, by omega, hlow,
    hhigh⟩
  rintro ⟨c, hc⟩
  rcases start_of_encodeChar text hc with ⟨hb, -⟩ | ⟨p', hp', hfits⟩
  · omega
  · rw [h] at hp'
    obtain rfl := Option.some.inj (State.mk.inj hp').2
    exact hfits

/-- Behind an expected byte that is not the last one. -/
theorem concat (h : Awaits text piece p) {b : UInt8} (hlow : p.low ≤ b.toNat)
    (hhigh : b.toNat ≤ p.high) (hdue : 1 < p.due) :
    Awaits text (piece ++ [b]) ⟨p.value * 0x40 + (b.toNat - 0x80), p.due - 1, 0x80, 0xBF⟩ where
  ne_nil := List.append_ne_nil_of_left_ne_nil h.ne_nil _
  foldl_eq := by
    rw [List.foldl_append, h.foldl_eq, List.foldl_cons, List.foldl_nil]
    simp only [step]
    rw [if_pos ⟨hlow, hhigh⟩, if_neg (Nat.not_le_of_lt hdue)]
  fits_iff more := by
    rw [List.append_assoc, List.singleton_append, h.fits_iff]
    cases more with
    | nil => exact iff_of_false (fun hfits => absurd hfits.2.1 (Nat.ne_of_lt hdue)) id
    | cons b' more =>
      constructor
      · rintro ⟨-, hlen, hmore⟩
        rw [List.length_cons] at hlen
        rw [List.forall_mem_cons] at hmore
        exact ⟨hmore.1, Nat.eq_sub_of_add_eq hlen, hmore.2⟩
      · rintro ⟨hb', hlen, hmore⟩
        dsimp only at hlen
        refine ⟨⟨hlow, hhigh⟩, ?_, List.forall_mem_cons.mpr ⟨hb', hmore⟩⟩
        rw [List.length_cons]
        omega
  due_pos := Nat.sub_pos_of_lt hdue
  low_le := show 0x80 ≤ 0xBF by decide
  high_le := Nat.le_refl _

/-- The last byte ends a character. -/
theorem exists_encodeChar (h : Awaits text piece p) {b : UInt8} (hlow : p.low ≤ b.toNat)
    (hhigh : b.toNat ≤ p.high) (hdue : p.due ≤ 1) :
    ∃ c, String.utf8EncodeChar c = piece ++ [b] ∧ step ⟨text, some p⟩ b = ⟨text.push c, none⟩ := by
  have hone : 0 + 1 = p.due := Nat.le_antisymm h.due_pos hdue
  obtain ⟨c, hc⟩ := (h.fits_iff [b]).mpr ⟨⟨hlow, hhigh⟩, hone, List.forall_mem_nil _⟩
  have hread := foldl_step_encodeChar text c
  rw [hc, List.foldl_append, h.foldl_eq] at hread
  exact ⟨c, hc, hread⟩

/-- Any other byte is the first one of what is read next. -/
theorem step_of_unexpected (h : Awaits text piece p) {b : UInt8}
    (hb : ¬ (p.low ≤ b.toNat ∧ b.toNat ≤ p.high)) :
    ¬ Begins (piece ++ [b]) ∧ step ⟨text, some p⟩ b = step ⟨text.push replacement, none⟩ b := by
  refine ⟨?_, by simp only [step]; rw [if_neg hb]⟩
  rintro ⟨c, more, hc⟩
  rw [List.append_assoc, List.singleton_append] at hc
  exact hb ((h.fits_iff (b :: more)).mp ⟨c, hc.symm⟩).1

/-- The bytes are some of a character, and not all of it. -/
theorem part (h : Awaits text piece p) {rest : List UInt8}
    (hrest : ∀ b ∈ rest.head?, ¬ Begins (piece ++ [b])) : Part piece rest replacement := by
  have hlow := h.low_le
  have hhigh := h.high_le
  have hnat : (UInt8.ofNat p.low).toNat = p.low := by
    rw [UInt8.toNat_ofNat']
    omega
  have hfits : p.Fits (.ofNat p.low :: List.replicate (p.due - 1) 0x80) := by
    refine ⟨by rw [hnat]; exact ⟨Nat.le_refl _, hlow⟩, ?_, ?_⟩
    · rw [List.length_replicate, Nat.sub_add_cancel h.due_pos]
    · intro b hb
      rw [List.eq_of_mem_replicate hb]
      exact ⟨by decide, by decide⟩
  obtain ⟨c, hc⟩ := (h.fits_iff _).mpr hfits
  refine .cut h.ne_nil (c := c) (hc ▸ List.prefix_append _ _) ?_ hrest
  rw [hc]
  exact fun heq => List.cons_ne_nil _ _ (List.self_eq_append_right.mp heq)

end Awaits

/-! ## Any bytes -/

/-- In the state `s`, with `text` and `piece` behind it, the machine reads `bytes` so that `piece`
and `bytes` together are read part by part. -/
def ReadsOn (text : String) (piece : List UInt8) (s : State) (bytes : List UInt8) : Prop :=
  ∃ cs, Lossy (piece ++ bytes) cs ∧ (bytes.foldl step s).finish = text ++ String.ofList cs

namespace ReadsOn

variable {text : String} {piece bytes : List UInt8} {s : State}

theorem of_step {b : UInt8} (h : ReadsOn text (piece ++ [b]) (step s b) bytes) :
    ReadsOn text piece s (b :: bytes) := by
  obtain ⟨cs, hlossy, hfinish⟩ := h
  rw [List.append_assoc] at hlossy
  exact ⟨cs, hlossy, hfinish⟩

theorem of_part {c : Char} (hpart : Part piece bytes c) (h : ReadsOn (text.push c) [] s bytes) :
    ReadsOn text piece s bytes := by
  obtain ⟨cs, hlossy, hfinish⟩ := h
  exact ⟨c :: cs, .cons hpart hlossy, by rw [hfinish, push_append_ofList]⟩

/-- A first byte. -/
theorem first {b : UInt8} (hbetween : ∀ text, ReadsOn text [] ⟨text, none⟩ bytes)
    (hinside : ∀ text piece p, Awaits text piece p → ReadsOn text piece ⟨text, some p⟩ bytes)
    (text : String) : ReadsOn text [] ⟨text, none⟩ (b :: bytes) := by
  refine of_step ?_
  show ReadsOn text [b] (start text b.toNat) bytes
  rcases start_cases text b.toNat with ⟨hb, hstart⟩ | ⟨p, hstart⟩ | ⟨hb, hstart⟩
  · rw [hstart]
    have hpart : Part [b] bytes (.ofNat b.toNat) := by
      rw [← encodeChar_ofNat hb]
      exact .char _ bytes
    exact of_part hpart (hbetween _)
  · rw [hstart]
    exact hinside text [b] p (.first hstart)
  · rw [hstart]
    have hnot : ¬ Begins [b] := by
      rintro ⟨c, more, hc⟩
      rcases start_of_encodeChar text hc.symm with ⟨hb', -⟩ | ⟨p, hp, -⟩
      · omega
      · rw [hstart] at hp
        cases (State.mk.inj hp).2
    exact of_part (.stray bytes hnot) (hbetween _)

/-- A byte behind a piece of a character. -/
theorem inside {b : UInt8} (hbetween : ∀ text, ReadsOn text [] ⟨text, none⟩ bytes)
    (hinside : ∀ text piece p, Awaits text piece p → ReadsOn text piece ⟨text, some p⟩ bytes)
    {p : Pending} (h : Awaits text piece p) : ReadsOn text piece ⟨text, some p⟩ (b :: bytes) := by
  by_cases hb : p.low ≤ b.toNat ∧ b.toNat ≤ p.high
  · refine of_step ?_
    by_cases hdue : p.due ≤ 1
    · obtain ⟨c, hc, hstep⟩ := h.exists_encodeChar hb.1 hb.2 hdue
      rw [hstep, ← hc]
      exact of_part (.char c bytes) (hbetween _)
    · have hmore := h.concat hb.1 hb.2 (Nat.lt_of_not_le hdue)
      have hstep := hmore.foldl_eq
      rw [List.foldl_append, h.foldl_eq, List.foldl_cons, List.foldl_nil] at hstep
      rw [hstep]
      exact hinside _ _ _ hmore
  · -- the piece ends here, and `b` is a first byte
    obtain ⟨hnot, hstep⟩ := h.step_of_unexpected hb
    refine of_part (h.part fun b' hb' => Option.some.inj hb' ▸ hnot) ?_
    rw [ReadsOn, List.foldl_cons, hstep]
    exact first hbetween hinside _

end ReadsOn

/-- Bytes behind a text, and behind a piece of a character, are read part by part. -/
theorem readsOn (bytes : List UInt8) :
    (∀ text, ReadsOn text [] ⟨text, none⟩ bytes) ∧
      ∀ text piece p, Awaits text piece p → ReadsOn text piece ⟨text, some p⟩ bytes := by
  induction bytes with
  | nil =>
    refine ⟨fun text => ⟨[], .nil, String.append_empty.symm⟩, fun text piece p h => ?_⟩
    have hpart : Part piece [] replacement := h.part fun b hb => by contradiction
    exact .of_part hpart ⟨[], .nil, String.append_empty.symm⟩
  | cons b bytes ih => exact ⟨.first ih.1 ih.2, fun _ _ _ h => .inside ih.1 ih.2 h⟩

/-- **Reading any bytes.** They are read part by part, and there is no other text that they could be
read as. -/
theorem lossy_iff {bytes : List UInt8} {text : String} :
    Lossy bytes text.toList ↔ text = decode bytes := by
  obtain ⟨cs, hlossy, hfinish⟩ := (readsOn bytes).1 ""
  have hdecode : decode bytes = String.ofList cs := by rw [decode, hfinish, String.empty_append]
  rw [hdecode]
  constructor
  · intro h
    rw [← h.unique hlossy, String.ofList_toList]
  · rintro rfl
    rwa [String.toList_ofList]

example : decode [0x61, 0xE2, 0x82, 0x41, 0xC0, 0xAF] = "a\uFFFDA\uFFFD\uFFFD" := by decide

end Spirv.Utf8

import Spirv.Text.Utf8

/-!
# Reading back UTF-8

The machine `Utf8.step` reads back what `Utf8.encode` writes.

- `foldl_step_encodeChar`: the bytes of a character take the machine from between two characters
  to between two characters and add that character to the text. There is one lemma for each
  number of bytes (`start_two`, `start_three`, `start_four`) about the first byte, and two about
  the bytes behind it (`step_continue`, `step_last`).
- `decode_encode`: reading undoes writing.
- `zero_mem_encode`: a zero byte stands for a nul and for nothing else.
-/

namespace Spirv.Utf8

/-- The bytes of a string are those of its characters. -/
theorem encode_eq_flatMap (s : String) : encode s = s.toList.flatMap String.utf8EncodeChar := by
  have hbytes : s.toUTF8 = (s.toList.flatMap String.utf8EncodeChar).toByteArray := by
    conv => lhs; rw [← String.ofList_toList (s := s)]
    exact String.toByteArray_ofList
  rw [encode, hbytes, List.data_toByteArray]

/-! ## The bytes of one character -/

theorem step_first (text : String) {n : Nat} (h : n < 256) :
    step ⟨text, none⟩ (.ofNat n) = start text n := by
  rw [step, UInt8.toNat_ofNat', Nat.mod_eq_of_lt h]

/-- The first of two bytes. -/
theorem start_two (text : String) {v : Nat} (hlo : 0x7F < v) (hhi : v ≤ 0x7FF) :
    start text (v / 64 % 0x20 + 0xC0) = ⟨text, some ⟨v / 64, 1, 0x80, 0xBF⟩⟩ := by
  have hmod : v / 64 % 0x20 = v / 64 := Nat.mod_eq_of_lt (by omega)
  rw [hmod, start, if_neg (by omega), if_pos (by omega), Nat.add_sub_cancel]

/-- The first of three bytes. Whatever range it leaves for the second one, the second byte of a
code point that is no surrogate lies in it. -/
theorem start_three (text : String) {v : Nat} (hlo : 0x7FF < v) (hhi : v ≤ 0xFFFF)
    (hv : v < 0xD800 ∨ 0xDFFF < v) : ∃ low high,
      start text (v / 4096 % 0x10 + 0xE0) = ⟨text, some ⟨v / 4096, 2, low, high⟩⟩ ∧
        low ≤ v / 64 % 0x40 + 0x80 ∧ v / 64 % 0x40 + 0x80 ≤ high := by
  have hmod : v / 4096 % 0x10 = v / 4096 := Nat.mod_eq_of_lt (by omega)
  rw [hmod, start, if_neg (by omega), if_neg (by omega)]
  by_cases h0 : v / 4096 = 0
  · rw [if_pos (by omega)]
    exact ⟨_, _, by rw [h0], by omega, by omega⟩
  · rw [if_neg (by omega)]
    by_cases hd : v / 4096 = 0xD
    · rw [if_pos (by omega)]
      exact ⟨_, _, by rw [hd], by omega, by omega⟩
    · rw [if_neg (by omega), if_pos (by omega), Nat.add_sub_cancel]
      exact ⟨_, _, rfl, by omega, by omega⟩

/-- The first of four bytes. -/
theorem start_four (text : String) {v : Nat} (hlo : 0xFFFF < v) (hhi : v < 0x110000) :
    ∃ low high,
      start text (v / 262144 % 0x08 + 0xF0) = ⟨text, some ⟨v / 262144, 3, low, high⟩⟩ ∧
        low ≤ v / 4096 % 0x40 + 0x80 ∧ v / 4096 % 0x40 + 0x80 ≤ high := by
  have hmod : v / 262144 % 0x08 = v / 262144 := Nat.mod_eq_of_lt (by omega)
  rw [hmod, start, if_neg (by omega), if_neg (by omega), if_neg (by omega), if_neg (by omega),
    if_neg (by omega)]
  by_cases h0 : v / 262144 = 0
  · rw [if_pos (by omega)]
    exact ⟨_, _, by rw [h0], by omega, by omega⟩
  · rw [if_neg (by omega)]
    by_cases h4 : v / 262144 = 4
    · rw [if_neg (by omega), if_pos (by omega)]
      exact ⟨_, _, by rw [h4], by omega, by omega⟩
    · rw [if_pos (by omega), Nat.add_sub_cancel]
      exact ⟨_, _, rfl, by omega, by omega⟩

theorem toNat_continuation (n : Nat) : (UInt8.ofNat (n % 0x40 + 0x80)).toNat = n % 0x40 + 0x80 := by
  rw [UInt8.toNat_ofNat']
  omega

/-- A byte that is neither the first nor the last of its character adds six bits. -/
theorem step_continue (text : String) (value due : Nat) {low high n : Nat}
    (hlo : low ≤ n % 0x40 + 0x80) (hhi : n % 0x40 + 0x80 ≤ high) :
    step ⟨text, some ⟨value, due + 2, low, high⟩⟩ (.ofNat (n % 0x40 + 0x80)) =
      ⟨text, some ⟨value * 0x40 + n % 0x40, due + 1, 0x80, 0xBF⟩⟩ := by
  simp only [step, toNat_continuation]
  rw [if_pos ⟨hlo, hhi⟩, if_neg (by omega), Nat.add_sub_cancel]
  rfl

/-- The last byte of a character ends it. -/
theorem step_last (text : String) (value : Nat) {low high n : Nat}
    (hlo : low ≤ n % 0x40 + 0x80) (hhi : n % 0x40 + 0x80 ≤ high) :
    step ⟨text, some ⟨value, 1, low, high⟩⟩ (.ofNat (n % 0x40 + 0x80)) =
      ⟨text.push (.ofNat (value * 0x40 + n % 0x40)), none⟩ := by
  simp only [step, toNat_continuation]
  rw [if_pos ⟨hlo, hhi⟩, if_pos (by omega), Nat.add_sub_cancel]

/-- The bytes of a character are read as that character. -/
theorem foldl_step_encodeChar (text : String) (c : Char) :
    (String.utf8EncodeChar c).foldl step ⟨text, none⟩ = ⟨text.push c, none⟩ := by
  have hvalid : c.val.toNat < 0xD800 ∨ 0xDFFF < c.val.toNat ∧ c.val.toNat < 0x110000 := c.valid
  have hchar : Char.ofNat c.val.toNat = c := Char.ofNat_toNat c
  unfold String.utf8EncodeChar
  generalize c.val.toNat = v at hvalid hchar
  dsimp only
  by_cases h1 : v ≤ 0x7F
  · rw [if_pos h1, List.foldl_cons, List.foldl_nil, step_first text (by omega), start, if_pos h1,
      hchar]
  rw [if_neg h1]
  by_cases h2 : v ≤ 0x7FF
  · rw [if_pos h2, List.foldl_cons, List.foldl_cons, List.foldl_nil, step_first text (by omega),
      start_two text (by omega) h2, step_last _ _ (by omega) (by omega), Nat.div_add_mod' v 64,
      hchar]
  rw [if_neg h2]
  by_cases h3 : v ≤ 0xFFFF
  · obtain ⟨low, high, hstart, hlo, hhi⟩ := start_three text (Nat.lt_of_not_le h2) h3 (by omega)
    have hvalue : (v / 4096 * 0x40 + v / 64 % 0x40) * 0x40 + v % 0x40 = v := by omega
    rw [if_pos h3, List.foldl_cons, List.foldl_cons, List.foldl_cons, List.foldl_nil,
      step_first text (by omega), hstart, step_continue _ _ 0 hlo hhi,
      step_last _ _ (by omega) (by omega), hvalue, hchar]
  · obtain ⟨low, high, hstart, hlo, hhi⟩ := start_four text (Nat.lt_of_not_le h3) (by omega)
    have hvalue : ((v / 262144 * 0x40 + v / 4096 % 0x40) * 0x40 + v / 64 % 0x40) * 0x40 + v % 0x40
        = v := by omega
    rw [if_neg h3, List.foldl_cons, List.foldl_cons, List.foldl_cons, List.foldl_cons,
      List.foldl_nil, step_first text (by omega), hstart, step_continue _ _ 1 hlo hhi,
      step_continue _ _ 0 (by omega) (by omega), step_last _ _ (by omega) (by omega), hvalue, hchar]

/-! ## Whole strings -/

theorem push_append_ofList (text : String) (c : Char) (cs : List Char) :
    text.push c ++ String.ofList cs = text ++ String.ofList (c :: cs) := by
  rw [← String.toList_inj]
  simp

theorem foldl_step_encode (text : String) (cs : List Char) :
    (cs.flatMap String.utf8EncodeChar).foldl step ⟨text, none⟩ =
      ⟨text ++ String.ofList cs, none⟩ := by
  induction cs generalizing text with
  | nil => simp
  | cons c cs ih =>
    rw [List.flatMap_cons, List.foldl_append, foldl_step_encodeChar, ih, push_append_ofList]

/-- Reading undoes writing. -/
@[simp] theorem decode_encode (s : String) : decode (encode s) = s := by
  have hfold := foldl_step_encode "" s.toList
  rw [← encode_eq_flatMap, String.ofList_toList, String.empty_append] at hfold
  rw [decode, hfold]
  rfl

/-- Bytes that are valid UTF-8 are the bytes of the text that they are read as. -/
theorem encode_decode {bytes : List UInt8} (h : bytes.toByteArray.IsValidUTF8) :
    encode (decode bytes) = bytes := by
  obtain ⟨cs, hcs⟩ := h
  have hbytes : encode (String.ofList cs) = bytes := by
    rw [encode, String.toUTF8_eq_toByteArray, String.toByteArray_ofList, ← hcs,
      List.data_toByteArray]
  rw [← hbytes, decode_encode]

theorem zero_mem_encodeChar {c : Char} : 0 ∈ String.utf8EncodeChar c ↔ c = '\x00' := by
  have hvalid : c.val.toNat < 0xD800 ∨ 0xDFFF < c.val.toNat ∧ c.val.toNat < 0x110000 := c.valid
  have hnul : c = '\x00' ↔ c.val.toNat = 0 := by
    rw [← Char.toNat_inj]
    rfl
  rw [hnul]
  unfold String.utf8EncodeChar
  generalize c.val.toNat = v at hvalid
  dsimp only
  split
  case isTrue h =>
    simp only [List.mem_singleton, ← UInt8.toNat_inj, UInt8.toNat_ofNat', UInt8.toNat_zero]
    omega
  case isFalse h =>
    split <;> try split
    all_goals
      simp only [List.mem_cons, List.not_mem_nil, or_false, ← UInt8.toNat_inj,
        UInt8.toNat_ofNat', UInt8.toNat_zero]
      omega

/-- A zero byte stands for a nul and for nothing else. -/
theorem zero_mem_encode {s : String} : 0 ∈ encode s ↔ '\x00' ∈ s.toList := by
  rw [encode_eq_flatMap, List.mem_flatMap]
  constructor
  · rintro ⟨c, hc, h0⟩
    rwa [← zero_mem_encodeChar.mp h0]
  · intro h
    exact ⟨_, h, zero_mem_encodeChar.mpr rfl⟩

end Spirv.Utf8

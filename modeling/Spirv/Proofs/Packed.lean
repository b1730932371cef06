import Spirv.Proofs.Utf8
import Spirv.Text.Packed

/-!
# Strings in words

What `Packed.read?` reads at the start of any words, and that it reads back `Packed.words`.

- `Packed.nul`: the index of the first zero byte of some words; `Packed.IsString` says that it
  lies in their last word, so that the words are those of one string and nothing more;
  `Packed.text` is that string.
- `read?_eq`: what `read?` gives, in terms of `nul` and `text` of the corrected words. It only
  depends on the words up to the first zero byte (`IsString.read?_append`, `isString_take`), and
  all of these are needed (`IsString.read?_take`).
- `isString_words`, `text_words`: the words of a string without a nul are its words and no others.
- `words_text`: words that hold valid UTF-8 and are padded with zeros are the words of the string
  that they are read as.
-/

namespace Spirv

namespace Word

/-! ## Words and their bytes -/

@[simp] theorem length_bytes (w : Word) : w.bytes.length = 4 := rfl

@[simp] theorem length_flatMap_bytes (ws : List Word) :
    (ws.flatMap bytes).length = 4 * ws.length := by
  induction ws with
  | nil => rfl
  | cons w ws ih =>
    rw [List.flatMap_cons, List.length_append, ih, length_bytes, List.length_cons]
    omega

/-- Words are made of their bytes. -/
@[simp] theorem ofByteList_flatMap_bytes (ws : List Word) : ofByteList (ws.flatMap bytes) = ws := by
  induction ws with
  | nil => rfl
  | cons w ws ih => rw [List.flatMap_cons, ofByteList_bytes_append, ih]

/-- No byte is lost if the bytes fill their last word. -/
theorem flatMap_bytes_ofByteList : ∀ {bytes : List UInt8}, 4 ∣ bytes.length →
    (ofByteList bytes).flatMap Word.bytes = bytes
  | [], _ => rfl
  | [_], h | [_, _], h | [_, _, _], h => absurd h (by simp)
  | a :: b :: c :: d :: rest, h => by
    have hrest : 4 ∣ rest.length := by
      simp only [List.length_cons] at h
      omega
    rw [ofByteList_cons, List.flatMap_cons, bytes_ofBytes, flatMap_bytes_ofByteList hrest]
    rfl

/-- Words are determined by their bytes. -/
theorem flatMap_bytes_injective {vs ws : List Word} (h : vs.flatMap bytes = ws.flatMap bytes) :
    vs = ws := by
  rw [← ofByteList_flatMap_bytes vs, h, ofByteList_flatMap_bytes]

end Word

namespace Packed

/-! ## The string at the start of some words -/

/-- The index of the first zero byte, or the number of bytes if there is none. -/
def nul (ws : List Word) : Nat := (ws.flatMap Word.bytes).idxOf 0

/-- The bytes before the first zero byte. -/
def content (ws : List Word) : List UInt8 := (ws.flatMap Word.bytes).take (nul ws)

/-- The text of the bytes before the first zero byte. -/
def text (ws : List Word) : String := Utf8.decode (content ws)

/-- The words are those of one string: the first zero byte lies in the last of them. -/
def IsString (ws : List Word) : Prop := nul ws / 4 + 1 = ws.length

instance (ws : List Word) : Decidable (IsString ws) := inferInstanceAs (Decidable (_ = _))

theorem nul_le (ws : List Word) : nul ws ≤ 4 * ws.length := by
  rw [← Word.length_flatMap_bytes]
  exact List.idxOf_le_length

/-- There is a zero byte exactly when the search for it ends before the bytes do. -/
theorem nul_lt_iff {ws : List Word} : nul ws < 4 * ws.length ↔ 0 ∈ ws.flatMap Word.bytes := by
  rw [← Word.length_flatMap_bytes, nul, List.idxOf_lt_length_iff]

theorem IsString.nul_lt {ws : List Word} (h : IsString ws) : nul ws < 4 * ws.length := by
  unfold IsString at h
  omega

theorem IsString.ne_nil {ws : List Word} (h : IsString ws) : ws ≠ [] := by
  rintro rfl
  exact absurd h (by decide)

theorem content_eq_takeWhile (ws : List Word) :
    content ws = (ws.flatMap Word.bytes).takeWhile (· != 0) := by
  have hnot : (fun b : UInt8 => !(b != 0)) = (· == 0) := by
    funext b
    rw [bne, Bool.not_not]
  rw [List.takeWhile_eq_take_findIdx_not, hnot]
  rfl

theorem nul_append (ws rest : List Word) :
    nul (ws ++ rest) =
      if 0 ∈ ws.flatMap Word.bytes then nul ws else nul rest + 4 * ws.length := by
  rw [nul, List.flatMap_append, List.idxOf_append, Word.length_flatMap_bytes]
  rfl

theorem nul_append_of_lt {ws : List Word} (h : nul ws < 4 * ws.length) (rest : List Word) :
    nul (ws ++ rest) = nul ws := by
  rw [nul_append, if_pos (nul_lt_iff.mp h)]

theorem content_append {ws : List Word} (h : nul ws < 4 * ws.length) (rest : List Word) :
    content (ws ++ rest) = content ws := by
  have hle : nul ws ≤ (ws.flatMap Word.bytes).length := by
    rw [Word.length_flatMap_bytes]
    exact nul_le ws
  rw [content, nul_append_of_lt h, List.flatMap_append, List.take_append_of_le_length hle]
  rfl

/-- Words that hold a zero byte start with the words of a string. -/
theorem isString_take {ws : List Word} (h : nul ws < 4 * ws.length) :
    IsString (ws.take (nul ws / 4 + 1)) := by
  have hlen : (ws.take (nul ws / 4 + 1)).length = nul ws / 4 + 1 := by
    rw [List.length_take]
    omega
  have hnul : nul (ws.take (nul ws / 4 + 1)) = nul ws := by
    have hsplit := nul_append (ws.take (nul ws / 4 + 1)) (ws.drop (nul ws / 4 + 1))
    rw [List.take_append_drop] at hsplit
    split at hsplit
    · exact hsplit.symm
    · omega
  rw [IsString, hnul, hlen]

/-! ## What is read -/

theorem findIdx?_contains_zero (ws : List Word) :
    ws.findIdx? (·.bytes.contains 0) =
      if nul ws < 4 * ws.length then some (nul ws / 4) else none := by
  induction ws with
  | nil => rfl
  | cons w ws ih =>
    have hcons : nul (w :: ws) = if 0 ∈ w.bytes then nul [w] else nul ws + 4 := by
      have happend := nul_append [w] ws
      rwa [List.flatMap_singleton] at happend
    rw [List.findIdx?_cons, ih, hcons, List.length_cons, List.contains_eq_mem]
    by_cases h0 : 0 ∈ w.bytes
    · have hlt : nul [w] < 4 := nul_lt_iff.mpr (by rwa [List.flatMap_singleton])
      rw [decide_eq_true h0, if_pos rfl, if_pos h0, if_pos (by omega), Nat.div_eq_of_lt hlt]
    · rw [decide_eq_false h0, if_neg h0, if_neg Bool.false_ne_true]
      by_cases hlt : nul ws < 4 * ws.length
      · rw [if_pos hlt, if_pos (by omega), Option.map_some, Nat.add_div_right _ (by decide)]
      · rw [if_neg hlt, if_neg (by omega), Option.map_none]

variable {order : ByteOrder}

/-- Reading corrects each word before it looks at its bytes. -/
theorem read?_eq_map (ws : List Word) :
    read? order ws = ((ws.map order.fix).findIdx? (·.bytes.contains 0)).map fun last =>
      (Utf8.decode ((((ws.map order.fix).take (last + 1)).flatMap Word.bytes).takeWhile (· != 0)),
        last) := by
  unfold read?
  rw [List.findIdx?_map]
  refine congrArg (Option.map · _) (funext fun last => ?_)
  rw [← List.map_take, List.flatMap_map]

/-- **What is read at the start of any words.** There is a string exactly when there is a zero
byte. -/
theorem read?_eq {loaded ws : List Word} (hws : loaded.map order.fix = ws) :
    read? order loaded = if nul ws < 4 * ws.length then some (text ws, nul ws / 4) else none := by
  rw [read?_eq_map, hws, findIdx?_contains_zero]
  by_cases h : nul ws < 4 * ws.length
  · have htake := content_append (isString_take h).nul_lt (ws.drop (nul ws / 4 + 1))
    rw [List.take_append_drop] at htake
    rw [if_pos h, if_pos h, Option.map_some, text, htake, content_eq_takeWhile]
  · rw [if_neg h, if_neg h, Option.map_none]

/-- A string is read whatever follows it. -/
theorem IsString.read?_append {loaded ws rest : List Word} (h : IsString ws)
    (hws : loaded.map order.fix = ws ++ rest) :
    read? order loaded = some (text ws, ws.length - 1) := by
  have hlen : nul ws / 4 = ws.length - 1 := by
    unfold IsString at h
    omega
  have hlt : nul ws < 4 * (ws ++ rest).length := by
    have := h.nul_lt
    rw [List.length_append]
    omega
  rw [read?_eq hws, nul_append_of_lt h.nul_lt, if_pos hlt, hlen, text, content_append h.nul_lt]
  rfl

/-- A string of which the end is missing is not read. -/
theorem IsString.read?_take {loaded ws : List Word} (h : IsString ws) {k : Nat}
    (hk : k < ws.length) (hws : loaded.map order.fix = ws.take k) : read? order loaded = none := by
  rw [read?_eq hws, if_neg]
  intro hlt
  -- otherwise the first zero byte of the string lies in the words that are left
  have hnul := nul_append_of_lt hlt (ws.drop k)
  rw [List.take_append_drop] at hnul
  rw [← hnul, List.length_take] at hlt
  unfold IsString at h
  omega

/-- What is read are the words of a string, up to the one that holds its nul. -/
theorem isString_of_read? {loaded ws : List Word} (hws : loaded.map order.fix = ws) {s : String}
    {last : Nat} (h : read? order loaded = some (s, last)) :
    last < ws.length ∧ IsString (ws.take (last + 1)) ∧ s = text (ws.take (last + 1)) := by
  rw [read?_eq hws] at h
  split at h
  case isTrue hlt =>
    cases h
    have htake := content_append (isString_take hlt).nul_lt (ws.drop (nul ws / 4 + 1))
    rw [List.take_append_drop] at htake
    refine ⟨by omega, isString_take hlt, ?_⟩
    rw [text, htake]
    rfl
  case isFalse => contradiction

/-! ## Writing and reading back -/

/-- The bytes of a string, its nul and the zeros that fill its last word. -/
theorem flatMap_bytes_words (s : String) :
    (words s).flatMap Word.bytes =
      Utf8.encode s ++ List.replicate (4 - (Utf8.encode s).length % 4) 0 := by
  refine Word.flatMap_bytes_ofByteList ?_
  rw [List.length_append, List.length_replicate]
  omega

/-- A string takes one word for each four bytes, and one more. -/
theorem length_words (s : String) : (words s).length = (Utf8.encode s).length / 4 + 1 := by
  have hlen := congrArg List.length (flatMap_bytes_words s)
  rw [Word.length_flatMap_bytes, List.length_append, List.length_replicate] at hlen
  omega

theorem nul_words {s : String} (h : '\x00' ∉ s.toList) :
    nul (words s) = (Utf8.encode s).length := by
  have hzero : 0 ∉ Utf8.encode s := fun h0 => h (Utf8.zero_mem_encode.mp h0)
  obtain ⟨n, hn⟩ : ∃ n, 4 - (Utf8.encode s).length % 4 = n + 1 :=
    ⟨3 - (Utf8.encode s).length % 4, by omega⟩
  rw [nul, flatMap_bytes_words, List.idxOf_append, if_neg hzero, hn, List.replicate_succ,
    List.idxOf_cons_self, Nat.zero_add]

/-- The words of a string without a nul are the words of one string. -/
theorem isString_words {s : String} (h : '\x00' ∉ s.toList) : IsString (words s) := by
  rw [IsString, nul_words h, length_words]

/-- The words of a string without a nul are read as that string. -/
theorem text_words {s : String} (h : '\x00' ∉ s.toList) : text (words s) = s := by
  rw [text, content, nul_words h, flatMap_bytes_words, List.take_left, Utf8.decode_encode]

/-- The words of a string are written as its writer would have written its text: what stands before
the first zero byte is valid UTF-8, and all else is zero. -/
structure Canonical (ws : List Word) : Prop where
  valid : (content ws).toByteArray.IsValidUTF8
  padding : ∀ b ∈ (ws.flatMap Word.bytes).drop (nul ws), b = 0

/-- Canonical words of a string are determined by its text. -/
theorem words_text {ws : List Word} (h : IsString ws) (hc : Canonical ws) :
    words (text ws) = ws := by
  have hlen : (content ws).length = nul ws := by
    rw [content, List.length_take, Word.length_flatMap_bytes]
    exact Nat.min_eq_left (nul_le ws)
  have hpad : (ws.flatMap Word.bytes).drop (nul ws) = List.replicate (4 - nul ws % 4) 0 := by
    refine List.eq_replicate_iff.mpr ⟨?_, hc.padding⟩
    rw [List.length_drop, Word.length_flatMap_bytes]
    unfold IsString at h
    omega
  have hbytes : (words (text ws)).flatMap Word.bytes = ws.flatMap Word.bytes := by
    rw [flatMap_bytes_words, text, Utf8.encode_decode hc.valid, hlen, ← hpad]
    exact List.take_append_drop _ _
  exact Word.flatMap_bytes_injective hbytes

end Packed

end Spirv

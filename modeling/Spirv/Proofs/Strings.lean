import Mathlib.Data.List.TakeWhile
import Spirv.Instruction.Builder
import Spirv.Operand
import Spirv.Proofs.Lossy
import Spirv.Proofs.Packed

/-!
# Strings at any place of a module

What is read as a string from any position of any words on, said on their bytes.

- `Packed.read?_of_bytes`: the string ends at the first zero byte. Without a zero byte there is none
  (`Packed.read?_of_not_mem`), and an operand there is at fault (`Operand.read_unterminated`).
- `untilNul`: what stands before the first nul of a string. `Packed.exists_bytes_words` finds it at
  the start of the bytes of that string.
- `string_at`: both together, at every place of a module in either byte order.
-/

namespace Spirv

/-- What stands before the first nul of a string, which is all of it if there is none. -/
def untilNul (s : String) : String := String.ofList (s.toList.takeWhile (· != '\x00'))

theorem untilNul_eq_self {s : String} (h : '\x00' ∉ s.toList) : untilNul s = s := by
  have hall : s.toList.takeWhile (· != '\x00') = s.toList :=
    List.takeWhile_eq_self_iff.mpr fun c hc => bne_iff_ne.mpr fun heq => h (heq ▸ hc)
  rw [untilNul, hall, String.ofList_toList]

theorem nul_not_mem_untilNul (s : String) : '\x00' ∉ (untilNul s).toList := by
  rw [untilNul, String.toList_ofList]
  intro h
  exact absurd (List.mem_takeWhile_imp h) (by decide)

/-- A string with a nul is what stands before the first one, that nul, and the rest. -/
theorem exists_toList_eq_untilNul {s : String} (h : '\x00' ∈ s.toList) :
    ∃ rest, s.toList = (untilNul s).toList ++ '\x00' :: rest := by
  obtain ⟨front, rest, hs, hfront⟩ := List.eq_append_cons_of_mem h
  have huntil : (untilNul s).toList = front := by
    rw [untilNul, String.toList_ofList, hs, List.takeWhile_append_of_pos,
      List.takeWhile_cons_of_neg, List.append_nil]
    · decide
    · intro c hc
      exact bne_iff_ne.mpr fun heq => hfront (heq ▸ hc)
  exact ⟨rest, by rw [huntil, hs]⟩

namespace Packed

variable {order : ByteOrder}

/-! ## Reading -/

/-- **A string ends at the first zero byte**, and the words up to that byte are there. -/
theorem read?_of_bytes {loaded : List Word} {content rest : List UInt8}
    (hbytes : (loaded.map order.fix).flatMap Word.bytes = content ++ 0 :: rest)
    (hzero : 0 ∉ content) :
    read? order loaded = some (Utf8.decode content, content.length / 4) ∧
      content.length / 4 + 1 ≤ loaded.length := by
  have hnul : nul (loaded.map order.fix) = content.length := by
    rw [nul, hbytes, List.idxOf_append, if_neg hzero, List.idxOf_cons_self, Nat.zero_add]
  have hcontent : Packed.content (loaded.map order.fix) = content := by
    rw [Packed.content, hnul, hbytes, List.take_left]
  have hlt : nul (loaded.map order.fix) < 4 * (loaded.map order.fix).length := by
    rw [nul_lt_iff, hbytes]
    exact List.mem_append_right _ List.mem_cons_self
  refine ⟨?_, ?_⟩
  · rw [read?_eq rfl, if_pos hlt, text, hcontent, hnul]
  · rw [hnul, List.length_map] at hlt
    omega

/-- Without a zero byte there is no string. -/
theorem read?_of_not_mem {loaded : List Word}
    (hzero : 0 ∉ (loaded.map order.fix).flatMap Word.bytes) : read? order loaded = none := by
  rw [read?_eq rfl, if_neg fun hlt => hzero (nul_lt_iff.mp hlt)]

/-! ## Reading what has been written -/

/-- The bytes of a string in words start with those of the text before its first nul, and a zero
byte behind them. -/
theorem exists_bytes_words (s : String) :
    ∃ rest, (words s).flatMap Word.bytes = Utf8.encode (untilNul s) ++ 0 :: rest := by
  rw [flatMap_bytes_words]
  by_cases h : '\x00' ∈ s.toList
  · obtain ⟨tail, htail⟩ := exists_toList_eq_untilNul h
    have hencode : Utf8.encode s =
        Utf8.encode (untilNul s) ++ 0 :: tail.flatMap String.utf8EncodeChar := by
      rw [Utf8.encode_eq_flatMap, Utf8.encode_eq_flatMap, htail, List.flatMap_append,
        List.flatMap_cons]
      rfl
    rw [hencode, List.append_assoc, List.cons_append]
    exact ⟨_, rfl⟩
  · -- the zero byte is the first of those that fill the last word
    obtain ⟨n, hn⟩ : ∃ n, 4 - (Utf8.encode s).length % 4 = n + 1 :=
      ⟨3 - (Utf8.encode s).length % 4, by omega⟩
    rw [untilNul_eq_self h, hn, List.replicate_succ]
    exact ⟨_, rfl⟩

/-- **The words of a string** are read as the text before its first nul, whatever stands behind
them. -/
theorem read?_words_append (s : String) (after : List Word) :
    read? order ((words s).map order.fix ++ after) =
      some (untilNul s, (Utf8.encode (untilNul s)).length / 4) := by
  obtain ⟨rest, hrest⟩ := exists_bytes_words s
  have hfix : ((words s).map order.fix).map order.fix = words s := by
    rw [List.map_map]
    exact List.map_id'' order.fix_fix _
  have hbytes : (((words s).map order.fix ++ after).map order.fix).flatMap Word.bytes =
      Utf8.encode (untilNul s) ++ 0 :: (rest ++ (after.map order.fix).flatMap Word.bytes) := by
    rw [List.map_append, hfix, List.flatMap_append, hrest, List.append_assoc, List.cons_append]
  have hzero : 0 ∉ Utf8.encode (untilNul s) := fun h =>
    nul_not_mem_untilNul s (Utf8.zero_mem_encode.mp h)
  rw [(read?_of_bytes hbytes hzero).1, Utf8.decode_encode]

end Packed

/-- A string operand without an end is at fault where it starts. -/
theorem Operand.read_unterminated (g : Grammar) (opcode : Opcode) (imported : Option ExtInstSet)
    {order : ByteOrder} (position : Nat) {words : List Word} (hne : words ≠ [])
    (hzero : 0 ∉ (words.map order.fix).flatMap Word.bytes) :
    read g order opcode imported .literalString position words =
      .error ⟨position, none, .unterminatedString⟩ := by
  obtain ⟨word, rest, rfl⟩ := List.exists_cons_of_ne_nil hne
  dsimp only [read]
  rw [if_pos rfl, Packed.read?_of_not_mem hzero]

/-- **Strings at any place of a module**, in either byte order, with everything up to the end of the
words before them. A string is the text of the bytes before the first zero byte, with replacement
characters for what is no UTF-8, and it takes the words up to that byte. Without a zero byte there
is no string, and an operand is at fault where it starts. What has been encoded is read as the text
before its first nul, whatever stands before and behind it; without a nul this is all of it, in all
of its words. -/
theorem string_at (order : ByteOrder) :
    (∀ (words : List Word) (position : Nat) (content rest : List UInt8),
      ((words.drop position).map order.fix).flatMap Word.bytes = content ++ 0 :: rest →
      0 ∉ content →
        Packed.read? order (words.drop position) =
          some (Utf8.decode content, content.length / 4) ∧
        position + (content.length / 4 + 1) ≤ words.length ∧
        ∀ text : String, Utf8.Lossy content text.toList ↔ text = Utf8.decode content) ∧
    (∀ (words : List Word) (position : Nat),
      0 ∉ ((words.drop position).map order.fix).flatMap Word.bytes →
        Packed.read? order (words.drop position) = none ∧
        ∀ g opcode imported,
          Operand.read g order opcode imported .literalString position (words.drop position) =
            .error ⟨position, none, if position < words.length then .unterminatedString
              else .missingOperand .literalString⟩) ∧
    ∀ (s : String) (before after : List Word),
      Packed.read? order
          ((before ++ (Argument.string s).words.map order.fix ++ after).drop before.length) =
        some (untilNul s, (Utf8.encode (untilNul s)).length / 4) ∧
      ('\x00' ∉ s.toList →
        untilNul s = s ∧ (Utf8.encode s).length / 4 + 1 = (Argument.string s).words.length) := by
  refine ⟨fun words position content rest hbytes hzero => ?_, fun words position hzero => ?_,
    fun s before after => ⟨?_, fun h => ⟨untilNul_eq_self h, (Packed.length_words s).symm⟩⟩⟩
  · obtain ⟨hread, hlen⟩ := Packed.read?_of_bytes hbytes hzero
    rw [List.length_drop] at hlen
    exact ⟨hread, by omega, fun _ => Utf8.lossy_iff⟩
  · refine ⟨Packed.read?_of_not_mem hzero, fun g opcode imported => ?_⟩
    by_cases hlt : position < words.length
    · rw [if_pos hlt]
      refine Operand.read_unterminated g opcode imported position ?_ hzero
      exact List.ne_nil_of_length_pos (by rw [List.length_drop]; omega)
    · rw [if_neg hlt, List.drop_eq_nil_of_le (Nat.le_of_not_lt hlt)]
      rfl
  · rw [List.append_assoc, List.drop_left]
    exact Packed.read?_words_append s after

/-- In big-endian words behind a first one: a string that is no UTF-8, four bytes without an end, a
string with a nul inside, and one that fills its first word. -/
theorem string_at_second_word :
    Packed.read? .big ([7, 0x61FF6200].drop 1) = some ("a\uFFFDb", 0) ∧
    Operand.read .core .big .opName none .literalString 1 ([7, 0x61626364].drop 1) =
      .error ⟨1, none, .unterminatedString⟩ ∧
    Packed.read? .big
        (([7] ++ (Argument.string "ab\x00cd").words.map ByteOrder.big.fix ++ [0xFFFFFFFF]).drop 1) =
      some ("ab", 0) ∧
    (Utf8.encode "main").length / 4 + 1 = (Argument.string "main").words.length := by
  obtain ⟨hcontent, hnone, hencoded⟩ := string_at .big
  refine ⟨?_, ?_, ?_, ?_⟩
  · exact (hcontent [7, 0x61FF6200] 1 [0x61, 0xFF, 0x62] [] (by decide) (by decide)).1
  · exact (hnone [7, 0x61626364] 1 (by decide)).2 .core .opName none
  · exact (hencoded "ab\x00cd" [7] [0xFFFFFFFF]).1
  · exact ((hencoded "main" [] []).2 (by decide)).2

end Spirv

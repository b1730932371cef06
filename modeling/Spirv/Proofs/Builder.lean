import Mathlib.Data.List.Forall2
import Spirv.Instruction.Builder
import Spirv.Proofs.Packed

/-!
# Instructions under construction

What a builder holds after any calls of `Builder.append`, whether they succeed or not.

- `Argument.size`, `Argument.EncodedAs`: how many words an argument takes and what they stand for.
- `Builder.append_cases`: a call either adds its argument or leaves the builder alone.
- `Builder.appendAll`, `Builder.appended`: the builder behind some calls, and the arguments of those
  that succeed.
- `Builder.appendAll_exact`: the builder holds the encodings of these arguments and nothing else.
-/

namespace Spirv

/-! ## Arguments -/

namespace Argument

/-- The number of words that an argument asks for. -/
def size : Argument → Nat
  | word _ => 1
  | double _ => 2
  | string value => (Utf8.encode value).length / 4 + 1

/-- The words `ws` stand for an argument: a number is rejoined from its halves, and the bytes of a
string are followed by one to four zeros. -/
def EncodedAs : Argument → List Word → Prop
  | word value, ws => ws = [value]
  | double value, ws => ∃ low high, ws = [low, high] ∧ Word.join low high = value
  | string value, ws => ∃ padding, 1 ≤ padding ∧ padding ≤ 4 ∧
      ws.flatMap Word.bytes = Utf8.encode value ++ List.replicate padding 0

theorem length_words (a : Argument) : a.words.length = a.size := by
  cases a with
  | word => rfl
  | double => rfl
  | string value => exact Packed.length_words value

theorem encodedAs_words (a : Argument) : a.EncodedAs a.words := by
  cases a with
  | word value => rfl
  | double value => exact ⟨_, _, rfl, Word.join_halves value⟩
  | string value => exact ⟨_, by omega, by omega, Packed.flatMap_bytes_words value⟩

end Argument

/-! ## Calls -/

namespace Builder

theorem wordCount_le (b : Builder) : b.wordCount ≤ maxWordCount := b.size_lt

theorem length_words (b : Builder) : b.words.length = b.wordCount := rfl

/-- The first word of a built instruction declares all of its words. -/
theorem wordCount_first (b : Builder) :
    (Word.pack b.wordCount b.opcode.code).wordCount = b.words.length := by
  have hlt : b.wordCount < 0x10000 := Nat.lt_succ_of_le b.wordCount_le
  rw [Word.wordCount_pack hlt, length_words]

/-- **One call.** If there is room for the argument, its words are added, and otherwise nothing
changes. -/
theorem append_cases (b : Builder) (a : Argument) :
    (b.wordCount + a.size ≤ maxWordCount ∧ (b.append a).2 = none ∧
      (b.append a).1.opcode = b.opcode ∧
      (b.append a).1.body.toList = b.body.toList ++ a.words) ∨
    (maxWordCount < b.wordCount + a.size ∧ b.append a = (b, some .instructionTooLong)) := by
  have hsize := a.length_words
  unfold append wordCount
  dsimp only
  split
  · exact .inl ⟨by omega, rfl, rfl, Array.toList_appendList⟩
  · exact .inr ⟨by omega, rfl⟩

/-- The builder behind calls with the arguments `as`, whatever becomes of each call. -/
def appendAll (b : Builder) (as : List Argument) : Builder :=
  as.foldl (fun b a => (b.append a).1) b

/-- The arguments of those calls that succeed. -/
def appended (b : Builder) : List Argument → List Argument
  | [] => []
  | a :: as =>
    match b.append a with
    | (b', none) => a :: b'.appended as
    | (b', some _) => b'.appended as

/-- **Any calls** add the words of those arguments that there was room for. -/
theorem appendAll_body (b : Builder) (as : List Argument) :
    (b.appendAll as).opcode = b.opcode ∧
      (b.appendAll as).body.toList = b.body.toList ++ (b.appended as).flatMap Argument.words := by
  induction as generalizing b with
  | nil => exact ⟨rfl, (List.append_nil _).symm⟩
  | cons a as ih =>
    have hstep : b.appendAll (a :: as) = (b.append a).1.appendAll as := rfl
    obtain ⟨hopcode, hbody⟩ := ih (b.append a).1
    rw [hstep, hopcode, hbody, appended]
    obtain ⟨-, hnone, hopcode₁, hbody₁⟩ | ⟨-, hrefused⟩ := b.append_cases a
    · have hcall : b.append a = ((b.append a).1, none) := Prod.ext rfl hnone
      rw [hcall]
      refine ⟨hopcode₁, ?_⟩
      rw [List.flatMap_cons, ← List.append_assoc, ← hbody₁]
    · rw [hrefused]
      exact ⟨rfl, rfl⟩

/-- **The next call** fails exactly if its argument does not fit, and then nothing changes. -/
theorem append_error_iff (b : Builder) (a : Argument) (e : Error) :
    (b.append a).2 = some e ↔ maxWordCount < b.wordCount + a.size ∧ e = .instructionTooLong := by
  obtain ⟨hroom, hnone, -⟩ | ⟨hlong, hrefused⟩ := b.append_cases a
  · rw [hnone]
    exact ⟨nofun, fun h => absurd h.1 (Nat.not_lt.mpr hroom)⟩
  · rw [hrefused, Option.some.injEq, eq_comm]
    exact (and_iff_right hlong).symm

theorem append_of_error {b : Builder} {a : Argument} {e : Error} (h : (b.append a).2 = some e) :
    (b.append a).1 = b := by
  obtain ⟨-, hnone, -⟩ | ⟨-, hrefused⟩ := b.append_cases a
  · rw [hnone] at h
    contradiction
  · rw [hrefused]

/-- The builder `b` is that of an instruction of `opcode` to which the arguments `kept` were added,
and it refuses what does not fit. -/
structure Exact (opcode : Opcode) (kept : List Argument) (b : Builder) : Prop where
  least : 1 ≤ b.wordCount
  most : b.wordCount ≤ 65535
  /-- The next call fails exactly if its argument does not fit. -/
  fails_iff : ∀ a e, (b.append a).2 = some e ↔
    65535 < b.wordCount + a.size ∧ e = .instructionTooLong
  /-- A call that fails changes nothing. -/
  unchanged : ∀ a e, (b.append a).2 = some e → (b.append a).1 = b
  length : b.words.length = b.wordCount
  /-- The first word declares the length and the opcode, and the others are the encodings of the
  arguments. -/
  words : ∃ (first : Word) (segments : List (List Word)), b.words = first :: segments.flatten ∧
    first.wordCount = b.wordCount ∧ first.opcodeNumber = opcode.code ∧
    List.Forall₂ Argument.EncodedAs kept segments

/-- **A builder** of which the arguments are known. -/
theorem exact_of_body {b : Builder} {kept : List Argument}
    (hbody : b.body.toList = kept.flatMap Argument.words) : Exact b.opcode kept b := by
  have hfirst : (Word.pack b.wordCount b.opcode.code).wordCount = b.wordCount :=
    b.wordCount_first.trans b.length_words
  have hwords : b.words =
      Word.pack b.wordCount b.opcode.code :: (kept.map Argument.words).flatten := by
    rw [words, hbody, List.flatMap]
  have hencoded : List.Forall₂ Argument.EncodedAs kept (kept.map Argument.words) :=
    List.forall₂_map_right_iff.mpr (List.forall₂_same.mpr fun a _ => a.encodedAs_words)
  exact {
    least := Nat.le_add_left _ _
    most := b.wordCount_le
    fails_iff := b.append_error_iff
    unchanged := fun _ _ => append_of_error
    length := b.length_words
    words := ⟨_, _, hwords, hfirst, Word.opcodeNumber_pack _ _, hencoded⟩ }

/-- **The encoder is exact and atomic.** After any calls, failed ones included, an instruction under
construction has between 1 and 65535 words. It is its first word, which declares its length and its
opcode, and the encodings of the arguments of the calls that succeeded, in order. The next call
fails exactly if its argument would lead past 65535 words, and then changes nothing. -/
theorem appendAll_exact (opcode : Opcode) (as : List Argument) :
    Exact opcode (appended { opcode := opcode } as) (appendAll { opcode := opcode } as) := by
  obtain ⟨hopcode, hbody⟩ := appendAll_body { opcode := opcode } as
  have hexact := exact_of_body hbody
  rwa [hopcode] at hexact

end Builder

end Spirv

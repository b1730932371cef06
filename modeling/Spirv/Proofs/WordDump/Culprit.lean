import Spirv.Proofs.WordDump

/-!
# Culprits

What is blamed for a text that is no word dump.

- `isHexDigit_of_isWhiteSpace`: white space ends a word like a blank does.
- `word?_of_head`: no word stands directly behind another, so from the first word on it makes no
  difference whether separators are optional (`wordsOnto_true_eq`).
- `exists_separated_of_wordsOnto`: so what is read in the search for a culprit are words with
  separators between them, and what is left does not go on with another.
- `exists_tokenOf`: how what is left is split at the token that is blamed.
- `Blames`: where the culprit of a text stands. `culprit_blamed` says that it is there in every text
  that is refused.
-/

namespace Spirv.WordDump

/-! ## White space -/

/-- White space is no part of a word. -/
theorem isHexDigit_of_isWhiteSpace {c : Char} (h : isWhiteSpace c = true) :
    isHexDigit c = false ∧ c ≠ 'x' ∧ c ≠ 'X' := by
  refine ⟨?_, ?_, ?_⟩
  · by_contra hdigit
    rw [Bool.not_eq_false] at hdigit
    have hascii : ∀ n < 128, isHexDigit (Char.ofNat n) = true →
        isWhiteSpace (Char.ofNat n) = false := by decide
    have hnot := hascii c.toNat (toNat_lt_of_isHexDigit hdigit)
    rw [Char.ofNat_toNat, h] at hnot
    exact absurd (hnot hdigit) (by decide)
  · rintro rfl
    exact absurd h (by decide)
  · rintro rfl
    exact absurd h (by decide)

/-! ## Words behind one another -/

/-- A text that does not start with a digit starts with no word. -/
theorem word?_of_head {text : List Char} (h : ∀ c ∈ text.head?, isHexDigit c = false) :
    word? text = none := by
  have hmark : dropMark text = text := by
    refine (dropMark_cases text).resolve_right ?_
    rintro ⟨x, -, htext⟩
    rw [htext] at h
    exact absurd (h '0' rfl) (by decide)
  have hdigits : text.takeWhile isHexDigit = [] := by
    cases text with
    | nil => rfl
    | cons c text => exact List.takeWhile_cons_of_neg (by simp [h c rfl])
  unfold word?
  rw [hmark, hdigits]
  rfl

/-- A word is read up to its last digit. -/
theorem head_of_word? {text rest : List Char} {w : Word} (h : word? text = some (w, rest)) :
    ∀ c ∈ rest.head?, isHexDigit c = false := by
  unfold word? at h
  dsimp only at h
  split at h
  · contradiction
  · cases h
    intro c hc
    have hhead := List.head?_dropWhile_not isHexDigit (dropMark text)
    rw [hc] at hhead
    exact hhead

theorem next?_true_eq {text : List Char} (h : ∀ c ∈ text.head?, isHexDigit c = false) :
    next? true text = next? false text := by
  unfold next?
  split
  · rfl
  · exact word?_of_head h

/-- **Behind a word** it makes no difference whether separators are optional. -/
theorem wordsOnto_true_eq {text : List Char} (h : ∀ c ∈ text.head?, isHexDigit c = false)
    (acc : Array Word) : wordsOnto true acc text = wordsOnto false acc text := by
  rw [wordsOnto_eq, wordsOnto_eq false, next?_true_eq h]
  cases hnext : next? false text with
  | none => rfl
  | some read =>
    obtain ⟨w, rest⟩ := read
    have hword := hnext
    rw [next?_false, Option.bind_eq_some_iff] at hword
    obtain ⟨start, -, hword⟩ := hword
    exact wordsOnto_true_eq (head_of_word? hword) _
termination_by text.length
decreasing_by exact length_of_next? hnext

/-- Words are read until there is no other. -/
theorem next?_of_wordsOnto {optional : Bool} {acc words : Array Word} {text rest : List Char}
    (h : wordsOnto optional acc text = (words, rest)) : next? optional rest = none := by
  rw [wordsOnto_eq] at h
  cases hnext : next? optional text with
  | none =>
    rw [hnext] at h
    cases h
    exact hnext
  | some read =>
    obtain ⟨w, behind⟩ := read
    rw [hnext] at h
    exact next?_of_wordsOnto h
termination_by text.length
decreasing_by exact length_of_next? hnext

/-- The first word may have a separator in front of it. -/
theorem exists_of_next?_true {text rest : List Char} {w : Word}
    (h : next? true text = some (w, rest)) :
    ∃ lead own, text = lead ++ (own ++ rest) ∧ (lead = [] ∨ Separator lead) ∧ WordText own w ∧
      ∀ c ∈ rest.head?, isHexDigit c = false := by
  unfold next? at h
  split at h
  · next start hseparator =>
    obtain ⟨lead, rfl, hlead⟩ := exists_of_separator? hseparator
    obtain ⟨own, rfl, hw⟩ := exists_of_word? h
    exact ⟨lead, own, rfl, .inr hlead, hw, head_of_word? h⟩
  · rw [if_pos rfl] at h
    obtain ⟨own, rfl, hw⟩ := exists_of_word? h
    exact ⟨[], own, rfl, .inl rfl, hw, head_of_word? h⟩

/-- **What is read in search of a culprit**: words with separators between them. -/
theorem exists_separated_of_wordsOnto {words : Array Word} {text rest : List Char}
    (h : wordsOnto true #[] text = (words, rest)) :
    ∃ lead body ws, text = lead ++ (body ++ rest) ∧ (lead = [] ∨ Separator lead) ∧
      Separated body ws ∧ next? true rest = none := by
  have hend := next?_of_wordsOnto h
  rw [wordsOnto_eq] at h
  cases hnext : next? true text with
  | none =>
    rw [hnext] at h
    cases h
    exact ⟨[], [], [], rfl, .inl rfl, .nil, hend⟩
  | some read =>
    obtain ⟨w, behind⟩ := read
    obtain ⟨lead, own, rfl, hlead, hw, hhead⟩ := exists_of_next?_true hnext
    rw [hnext] at h
    dsimp only at h
    rw [wordsOnto_true_eq hhead] at h
    obtain ⟨others, ws, rfl, hfollowing, -⟩ := exists_of_wordsOnto h
    refine ⟨lead, own ++ others, w :: ws, ?_, hlead, .cons hw hfollowing, hend⟩
    rw [List.append_assoc]

/-! ## Culprits -/

/-- `Blames text token`: words that can be read stand at the start of `text`, then a gap of commas
and white space, and then `token`, up to the next white space. It is no word if the gap is what may
stand between two words. It is only missing if the text ends in the gap, and then the gap is not
what may stand behind the last word, or a comma stands in front of the first. -/
inductive Blames : List Char → List Char → Prop where
  | intro {lead body gap token behind : List Char} {ws : List Word}
      (hlead : lead = [] ∨ Separator lead) (hbody : Separated body ws)
      (hgap : ∀ c ∈ gap, c = ',' ∨ isWhiteSpace c = true)
      (htoken : ∀ c ∈ token, isWhiteSpace c = false) (hstart : token.head? ≠ some ',')
      (hbehind : ∀ c ∈ behind.head?, isWhiteSpace c = true)
      (hword : gap = [] ∨ Separator gap → ¬ ∃ w, WordText token w)
      (hmissing : token = [] → behind = [] ∧ ¬ (Blanks lead ∧ Ending gap)) :
      Blames (lead ++ (body ++ (gap ++ (token ++ behind)))) token

/-- A word behind what may stand between words would have been read. -/
theorem not_wordText_of_next? {gap token behind : List Char}
    (hnext : next? true (gap ++ (token ++ behind)) = none)
    (hbehind : ∀ c ∈ behind.head?, isWhiteSpace c = true) (hgap : gap = [] ∨ Separator gap) :
    ¬ ∃ w, WordText token w := by
  rintro ⟨w, hw⟩
  have hread : word? (token ++ behind) = some (w, behind) :=
    word?_append hw fun c hc => isHexDigit_of_isWhiteSpace (hbehind c hc)
  unfold next? at hnext
  rcases hgap with rfl | hgap
  · rw [List.nil_append] at hnext
    split at hnext
    · next start hseparator =>
      -- no separator stands at the start of a word
      obtain ⟨separator, htext, hs⟩ := exists_of_separator? hseparator
      obtain ⟨c, rest, rfl, hdigit⟩ := hw.exists_cons
      have hends : Ends (separator ++ start) := hs.ends
      rw [← htext] at hends
      rw [(isHexDigit_of_ends (hends c rfl)).1] at hdigit
      contradiction
    · rw [if_pos rfl, hread] at hnext
      contradiction
  · rw [separator?_append hgap hw.not_ends] at hnext
    dsimp only at hnext
    rw [hread] at hnext
    contradiction

/-- The token that is blamed for what is left behind the words. -/
def tokenOf (rest : List Char) : List Char :=
  (rest.dropWhile fun c => c == ',' || isWhiteSpace c).takeWhile fun c => !isWhiteSpace c

/-- Where that token stands. -/
theorem exists_tokenOf (rest : List Char) :
    ∃ gap behind, rest = gap ++ (tokenOf rest ++ behind) ∧
      (∀ c ∈ gap, c = ',' ∨ isWhiteSpace c = true) ∧
      (∀ c ∈ tokenOf rest, isWhiteSpace c = false) ∧ (tokenOf rest).head? ≠ some ',' ∧
      (∀ c ∈ behind.head?, isWhiteSpace c = true) ∧ (tokenOf rest = [] → behind = []) := by
  let left := rest.dropWhile fun c => c == ',' || isWhiteSpace c
  let behind := left.dropWhile fun c => !isWhiteSpace c
  have hleft : tokenOf rest ++ behind = left := List.takeWhile_append_dropWhile
  have hstart : ∀ c ∈ left.head?, c ≠ ',' ∧ isWhiteSpace c = false := by
    intro c hc
    have hhead := List.head?_dropWhile_not (fun c => c == ',' || isWhiteSpace c) rest
    rw [show (rest.dropWhile fun c => c == ',' || isWhiteSpace c).head? = some c from hc] at hhead
    simpa using hhead
  have hbehind : ∀ c ∈ behind.head?, isWhiteSpace c = true := by
    intro c hc
    have hhead := List.head?_dropWhile_not (fun c => !isWhiteSpace c) left
    rw [show (left.dropWhile fun c => !isWhiteSpace c).head? = some c from hc] at hhead
    simpa using hhead
  refine ⟨rest.takeWhile fun c => c == ',' || isWhiteSpace c, behind, ?_, ?_, ?_, ?_, hbehind, ?_⟩
  · rw [hleft]
    exact List.takeWhile_append_dropWhile.symm
  · intro c hc
    simpa using List.mem_takeWhile_imp hc
  · intro c hc
    simpa using List.mem_takeWhile_imp hc
  · intro hcomma
    refine (hstart ',' ?_).1 rfl
    rw [← hleft, List.head?_append, hcomma]
    rfl
  · intro hnil
    rw [hnil, List.nil_append] at hleft
    -- the first character would be white space and not be white space
    refine List.head?_eq_none_iff.mp (Option.eq_none_iff_forall_not_mem.mpr fun c hc => ?_)
    have hspace := hbehind c hc
    rw [hleft] at hc
    rw [(hstart c hc).2] at hspace
    contradiction

/-- **The culprit of a text** that is no dump. -/
theorem blames_culprit {text : List Char} (h : ¬ ∃ ws, IsDump text ws) :
    Blames text (culprit text) := by
  cases hread : wordsOnto true #[] text with
  | mk words rest =>
    obtain ⟨lead, body, ws, htext, hlead, hbody, hnext⟩ := exists_separated_of_wordsOnto hread
    obtain ⟨gap, behind, hrest, hgap, htoken, hstart, hbehind, hnothing⟩ := exists_tokenOf rest
    have hculprit : culprit text = tokenOf rest := by
      unfold culprit
      rw [hread]
      rfl
    rw [hculprit]
    generalize tokenOf rest = token at hrest htoken hstart hnothing ⊢
    subst hrest htext
    refine .intro hlead hbody hgap htoken hstart hbehind (not_wordText_of_next? hnext hbehind) ?_
    intro hnil
    refine ⟨hnothing hnil, fun hdump => h ⟨ws, ?_⟩⟩
    rw [hnil, hnothing hnil, List.nil_append, List.append_nil]
    exact .intro hdump.1 hbody hdump.2

/-- **The culprit in the error** for a text that is refused. -/
theorem culprit_blamed {text : String} {e : Error} (h : parse text = .error e) :
    ∃ token, e = .invalidDump (String.ofList token) ∧ Blames text.toList token := by
  obtain ⟨hnot, rfl⟩ := parse_eq_error_iff.mp h
  exact ⟨_, rfl, blames_culprit hnot⟩

/-- A text with a token that is no word. -/
theorem culprit_blamed_main :
    parse "0x07230203 main 0x0" = .error (.invalidDump "main") ∧
      Blames "0x07230203 main 0x0".toList "main".toList := by
  have h : parse "0x07230203 main 0x0" = .error (.invalidDump "main") := by cbv
  obtain ⟨token, htoken, hblames⟩ := culprit_blamed h
  obtain rfl : "main".toList = token := by
    rw [Error.invalidDump.injEq] at htoken
    rw [htoken, String.toList_ofList]
  exact ⟨h, hblames⟩

/-- Two commas between words blame the second word, and a comma in front of the first word blames
nothing. -/
theorem culprit_blamed_comma :
    parse "1,,2" = .error (.invalidDump "2") ∧ WordText "2".toList 2 ∧
      parse ",1" = .error (.invalidDump "") := by
  refine ⟨by cbv, ?_, by cbv⟩
  exact .bare (.one (.inl rfl)) (by decide)

end Spirv.WordDump

import Mathlib.Data.List.Induction
import Mathlib.Data.List.TakeWhile
import Spirv.WordDump

/-!
# The grammar of word dumps

Which texts are word dumps and what they stand for, said without the parser, and that the parser
accepts these texts and no others.

- `WordDump.IsDigit`, `WordDump.Numeral`: hexadecimal digits and numerals with their values.
- `WordDump.WordText`, `WordDump.Separator`: how a word is written and what stands between two
  words.
- `WordDump.IsDump`: a text is a dump of some words.
- `word?_append`, `separator?_append`, `wordsOnto_append`: what is written is read, if what follows
  does not go on with it. `exists_of_word?`, `exists_of_separator?`, `exists_of_wordsOnto`: what is
  read has been written.
- `words?_eq_some_iff`: the words of a whole text. `parse_eq_ok_iff` and `parse_eq_error_iff` say
  what the parser makes of it.
- `parse_accepts`: a text is parsed as some words exactly if it is a dump of them.
-/

namespace Spirv.WordDump

/-! ## The grammar -/

/-- A hexadecimal digit in either case and its value. -/
def IsDigit (c : Char) (value : Nat) : Prop :=
  "0123456789abcdef".toList[value]? = some c ∨ "0123456789ABCDEF".toList[value]? = some c

instance (c : Char) (value : Nat) : Decidable (IsDigit c value) :=
  inferInstanceAs (Decidable (_ ∨ _))

/-- `Numeral digits n`: one or more digits, the first of which is the highest, and their number. -/
inductive Numeral : List Char → Nat → Prop where
  | one {c : Char} {value : Nat} (hc : IsDigit c value) : Numeral [c] value
  | more {digits : List Char} {n : Nat} {c : Char} {value : Nat} (hdigits : Numeral digits n)
      (hc : IsDigit c value) : Numeral (digits ++ [c]) (16 * n + value)

/-- `WordText text w`: the word `w` is written as `text`. There can be any number of zeros in front
of its digits. -/
inductive WordText : List Char → Word → Prop where
  | bare {digits : List Char} {n : Nat} (hdigits : Numeral digits n) (hn : n < 0x100000000) :
      WordText digits (.ofNat n)
  | marked {x : Char} {digits : List Char} {n : Nat} (hx : x = 'x' ∨ x = 'X')
      (hdigits : Numeral digits n) (hn : n < 0x100000000) : WordText ('0' :: x :: digits) (.ofNat n)

/-- Blanks only, or nothing. -/
def Blanks (text : List Char) : Prop := ∀ c ∈ text, c = ' ' ∨ c = '\t' ∨ c = '\r' ∨ c = '\n'

instance (text : List Char) : Decidable (Blanks text) := List.decidableBAll _ text

/-- What stands between two words: a comma with blanks around it or none, or blanks. -/
inductive Separator : List Char → Prop where
  | comma {before after : List Char} (hbefore : Blanks before) (hafter : Blanks after) :
      Separator (before ++ ',' :: after)
  | blanks {text : List Char} (hne : text ≠ []) (htext : Blanks text) : Separator text

/-- Words that follow another one, each behind a separator. -/
inductive Following : List Char → List Word → Prop where
  | nil : Following [] []
  | cons {separator text rest : List Char} {w : Word} {ws : List Word}
      (hseparator : Separator separator) (hw : WordText text w) (hrest : Following rest ws) :
      Following (separator ++ (text ++ rest)) (w :: ws)

/-- Words with separators between them. -/
inductive Separated : List Char → List Word → Prop where
  | nil : Separated [] []
  | cons {text rest : List Char} {w : Word} {ws : List Word} (hw : WordText text w)
      (hrest : Following rest ws) : Separated (text ++ rest) (w :: ws)

/-- What may stand behind the last word: blanks, and a single comma directly behind the word. -/
inductive Ending : List Char → Prop where
  | blanks {text : List Char} (h : Blanks text) : Ending text
  | comma {text : List Char} (h : Blanks text) : Ending (',' :: text)

/-- `IsDump text ws`: the text is a dump of the words `ws`. -/
inductive IsDump : List Char → List Word → Prop where
  | intro {before body ending : List Char} {ws : List Word} (hbefore : Blanks before)
      (hbody : Separated body ws) (hending : Ending ending) :
      IsDump (before ++ (body ++ ending)) ws

/-! ## Characters -/

theorem blanks_iff {text : List Char} : Blanks text ↔ ∀ c ∈ text, isBlank c = true := by
  simp [Blanks, isBlank, or_assoc]

theorem toNat_lt_of_isHexDigit {c : Char} (h : isHexDigit c = true) : c.toNat < 128 := by
  simp only [isHexDigit, Bool.or_eq_true, Bool.and_eq_true, decide_eq_true_eq] at h
  have hle : c ≤ 'f' := by
    rcases h with (⟨-, h⟩ | ⟨-, h⟩) | ⟨-, h⟩
    · exact Char.le_trans h (by decide)
    · exact h
    · exact Char.le_trans h (by decide)
  have hnat : c.toNat ≤ 'f'.toNat := hle
  exact Nat.lt_of_le_of_lt hnat (by decide)

/-- **The digits and their values.** -/
theorem isDigit_iff {c : Char} {value : Nat} :
    IsDigit c value ↔ isHexDigit c = true ∧ digitValue c = value := by
  constructor
  · intro h
    have hlt : value < 16 := by
      rcases h with h | h <;> exact (List.getElem?_eq_some_iff.mp h).1
    have hdigits : ∀ v < 16,
        ("0123456789abcdef".toList[v]?).all (fun c => isHexDigit c && digitValue c == v) ∧
          ("0123456789ABCDEF".toList[v]?).all fun c => isHexDigit c && digitValue c == v := by
      decide
    obtain ⟨hlower, hupper⟩ := hdigits value hlt
    rcases h with h | h
    · rw [h] at hlower
      simpa using hlower
    · rw [h] at hupper
      simpa using hupper
  · rintro ⟨hc, rfl⟩
    have hascii : ∀ n < 128, isHexDigit (Char.ofNat n) = true →
        IsDigit (Char.ofNat n) (digitValue (Char.ofNat n)) := by decide
    have h := hascii c.toNat (toNat_lt_of_isHexDigit hc)
    rw [Char.ofNat_toNat] at h
    exact h hc

/-- A text that does not go on with the word in front of it: it is empty or starts with a blank or a
comma. -/
def Ends (rest : List Char) : Prop := ∀ c ∈ rest.head?, isBlank c = true ∨ c = ','

theorem isHexDigit_of_ends {c : Char} (h : isBlank c = true ∨ c = ',') :
    isHexDigit c = false ∧ c ≠ 'x' ∧ c ≠ 'X' := by
  have hc : ((c = ' ' ∨ c = '\t') ∨ c = '\r') ∨ c = '\n' ∨ c = ',' := by
    simpa [isBlank, or_assoc] using h
  rcases hc with ((rfl | rfl) | rfl) | rfl | rfl <;> decide

/-- A text that does not go on with the digits in front of it, and with which `0` is no mark. -/
def Halts (rest : List Char) : Prop :=
  ∀ c ∈ rest.head?, isHexDigit c = false ∧ c ≠ 'x' ∧ c ≠ 'X'

theorem Ends.halts {rest : List Char} (h : Ends rest) : Halts rest :=
  fun c hc => isHexDigit_of_ends (h c hc)

/-- A list starts with elements that have a property if these are followed by one that has not. -/
theorem span_append {p : Char → Bool} {own rest : List Char} (hown : ∀ c ∈ own, p c = true)
    (hrest : ∀ c ∈ rest.head?, p c = false) :
    (own ++ rest).takeWhile p = own ∧ (own ++ rest).dropWhile p = rest := by
  rw [List.takeWhile_append_of_pos hown, List.dropWhile_append_of_pos hown]
  cases rest with
  | nil => simp
  | cons c rest =>
    have hc : ¬ p c = true := by simp [hrest c rfl]
    rw [List.takeWhile_cons_of_neg hc, List.dropWhile_cons_of_neg hc, List.append_nil]
    exact ⟨rfl, rfl⟩

/-! ## Words -/

theorem numberValue_concat (digits : List Char) (c : Char) :
    numberValue (digits ++ [c]) = 16 * numberValue digits + digitValue c := by
  rw [numberValue, List.foldl_append]
  rfl

/-- **The number of a numeral.** -/
theorem numeral_iff {digits : List Char} {n : Nat} :
    Numeral digits n ↔
      digits ≠ [] ∧ (∀ c ∈ digits, isHexDigit c = true) ∧ numberValue digits = n := by
  constructor
  · intro h
    induction h with
    | one hc =>
      obtain ⟨hdigit, rfl⟩ := isDigit_iff.mp hc
      refine ⟨List.cons_ne_nil _ _, fun c hc => List.mem_singleton.mp hc ▸ hdigit, ?_⟩
      simp [numberValue]
    | more _ hc ih =>
      obtain ⟨-, hdigits, rfl⟩ := ih
      obtain ⟨hdigit, rfl⟩ := isDigit_iff.mp hc
      refine ⟨by simp, fun c hc => ?_, numberValue_concat _ _⟩
      rcases List.mem_append.mp hc with hc | hc
      · exact hdigits c hc
      · exact List.mem_singleton.mp hc ▸ hdigit
  · rintro ⟨hne, hdigits, rfl⟩
    induction digits using List.reverseRecOn with
    | nil => contradiction
    | append_singleton digits c ih =>
      have hc : IsDigit c (digitValue c) := isDigit_iff.mpr ⟨hdigits c (by simp), rfl⟩
      rw [numberValue_concat]
      by_cases hnil : digits = []
      · subst hnil
        simpa [numberValue] using Numeral.one hc
      · exact .more (ih hnil fun c hc => hdigits c (List.mem_append_left _ hc)) hc

/-- The mark is missing or stands in front. -/
theorem dropMark_cases (text : List Char) :
    dropMark text = text ∨ ∃ x, (x = 'x' ∨ x = 'X') ∧ text = '0' :: x :: dropMark text := by
  unfold dropMark
  split
  · exact .inr ⟨_, .inl rfl, rfl⟩
  · exact .inr ⟨_, .inr rfl, rfl⟩
  · exact .inl rfl

/-- Digits are no mark. -/
theorem dropMark_append {digits rest : List Char} (hne : digits ≠ [])
    (hdigits : ∀ c ∈ digits, isHexDigit c = true) (hrest : Halts rest) :
    dropMark (digits ++ rest) = digits ++ rest := by
  refine (dropMark_cases _).resolve_right ?_
  rintro ⟨x, hx, htext⟩
  have hnot : isHexDigit x = false := by rcases hx with rfl | rfl <;> decide
  match digits, hne with
  | [c], _ =>
    have hrest' : rest = x :: dropMark ([c] ++ rest) := (List.cons.inj htext).2
    have hhead : rest.head? = some x := congrArg List.head? hrest'
    obtain ⟨-, hlower, hupper⟩ := hrest x hhead
    exact hx.elim hlower hupper
  | c :: d :: digits, _ =>
    have hd : d = x := (List.cons.inj (List.cons.inj htext).2).1
    have hdigit := hdigits d (by simp)
    rw [hd, hnot] at hdigit
    contradiction

theorem word?_of_numeral {text digits rest : List Char} {n : Nat}
    (htext : dropMark text = digits ++ rest) (hdigits : Numeral digits n) (hn : n < 0x100000000)
    (hrest : Halts rest) : word? text = some (.ofNat n, rest) := by
  obtain ⟨hne, hall, rfl⟩ := numeral_iff.mp hdigits
  obtain ⟨htake, hdrop⟩ := span_append hall fun c hc => (hrest c hc).1
  unfold word?
  rw [htext, htake, hdrop, if_neg]
  simp only [Bool.or_eq_true, List.isEmpty_iff, decide_eq_true_eq, not_or]
  exact ⟨hne, by omega⟩

/-- **A word that is written** is read. -/
theorem word?_append {text rest : List Char} {w : Word} (hw : WordText text w)
    (hrest : Halts rest) : word? (text ++ rest) = some (w, rest) := by
  cases hw with
  | bare hdigits hn =>
    obtain ⟨hne, hall, -⟩ := numeral_iff.mp hdigits
    exact word?_of_numeral (dropMark_append hne hall hrest) hdigits hn hrest
  | marked hx hdigits hn =>
    refine word?_of_numeral ?_ hdigits hn hrest
    rcases hx with rfl | rfl <;> rfl

/-- **A word that is read** is written there. -/
theorem exists_of_word? {text rest : List Char} {w : Word} (h : word? text = some (w, rest)) :
    ∃ own, text = own ++ rest ∧ WordText own w := by
  unfold word? at h
  dsimp only at h
  split at h
  · contradiction
  · next hfits =>
    simp only [Bool.or_eq_true, List.isEmpty_iff, decide_eq_true_eq, not_or] at hfits
    cases h
    have hdigits := numeral_iff.mpr ⟨hfits.1, fun c hc => List.mem_takeWhile_imp hc, rfl⟩
    have hlt : numberValue ((dropMark text).takeWhile isHexDigit) < 0x100000000 := by omega
    have hsplit := List.takeWhile_append_dropWhile (p := isHexDigit) (l := dropMark text)
    rcases dropMark_cases text with hbare | ⟨x, hx, hmarked⟩
    · exact ⟨_, hbare.symm.trans hsplit.symm, .bare hdigits hlt⟩
    · refine ⟨_, ?_, .marked hx hdigits hlt⟩
      rw [List.cons_append, List.cons_append, hsplit]
      exact hmarked

/-- A word starts with a digit. -/
theorem WordText.exists_cons {text : List Char} {w : Word} (h : WordText text w) :
    ∃ c rest, text = c :: rest ∧ isHexDigit c = true := by
  cases h with
  | bare hdigits =>
    obtain ⟨hne, hall, -⟩ := numeral_iff.mp hdigits
    obtain ⟨c, rest, rfl⟩ := List.exists_cons_of_ne_nil hne
    exact ⟨c, rest, rfl, hall c List.mem_cons_self⟩
  | marked => exact ⟨'0', _, rfl, by decide⟩

/-- And with neither a blank nor a comma. -/
theorem WordText.not_ends {text rest : List Char} {w : Word} (h : WordText text w) :
    ∀ c ∈ (text ++ rest).head?, isBlank c = false ∧ c ≠ ',' := by
  obtain ⟨c, text, rfl, hc⟩ := h.exists_cons
  intro c' hc'
  obtain rfl : c = c' := Option.some.inj hc'
  rw [← Bool.not_eq_true, ← not_or]
  intro hends
  rw [(isHexDigit_of_ends hends).1] at hc
  contradiction

/-! ## Separators -/

/-- **A separator that is written** is read. -/
theorem separator?_append {separator rest : List Char} (hs : Separator separator)
    (hrest : ∀ c ∈ rest.head?, isBlank c = false ∧ c ≠ ',') :
    separator? (separator ++ rest) = some rest := by
  have hblank : ∀ c ∈ rest.head?, isBlank c = false := fun c hc => (hrest c hc).1
  unfold separator?
  cases hs with
  | @comma before after hbefore hafter =>
    have hdrop : (before ++ (',' :: after ++ rest)).dropWhile isBlank = ',' :: after ++ rest :=
      (span_append (blanks_iff.mp hbefore) (by simp [isBlank])).2
    rw [List.append_assoc, hdrop]
    show some ((after ++ rest).dropWhile isBlank) = some rest
    rw [(span_append (blanks_iff.mp hafter) hblank).2]
  | blanks hne htext =>
    rw [(span_append (blanks_iff.mp htext) hblank).2]
    split
    · exact absurd rfl (hrest ',' rfl).2
    · obtain ⟨c, text, rfl⟩ := List.exists_cons_of_ne_nil hne
      have hc : isBlank c = true := blanks_iff.mp htext c List.mem_cons_self
      simp [hc]

/-- **A separator that is read** is written there. -/
theorem exists_of_separator? {text rest : List Char} (h : separator? text = some rest) :
    ∃ separator, text = separator ++ rest ∧ Separator separator := by
  have hsplit := List.takeWhile_append_dropWhile (p := isBlank) (l := text)
  have hblanks : ∀ text : List Char, Blanks (text.takeWhile isBlank) := fun text =>
    blanks_iff.mpr fun c hc => List.mem_takeWhile_imp hc
  unfold separator? at h
  split at h
  · next rest' hcomma =>
    cases h
    refine ⟨_, ?_, .comma (hblanks text) (hblanks rest')⟩
    rw [List.append_assoc, List.cons_append, List.takeWhile_append_dropWhile, ← hcomma, hsplit]
  · split at h
    · next hhead =>
      cases h
      refine ⟨_, hsplit.symm, .blanks ?_ (hblanks text)⟩
      cases text with
      | nil => simp at hhead
      | cons c text =>
        rw [List.takeWhile_cons_of_pos (by simpa using hhead)]
        exact List.cons_ne_nil _ _
    · contradiction

/-! ## Words one after another -/

theorem next?_false (text : List Char) : next? false text = (separator? text).bind word? := by
  unfold next?
  cases separator? text <;> rfl

theorem wordsOnto_eq (optional : Bool) (acc : Array Word) (text : List Char) :
    wordsOnto optional acc text = match next? optional text with
      | none => (acc, text)
      | some (w, rest) => wordsOnto optional (acc.push w) rest := by
  rw [wordsOnto]
  split
  · next hnext => rw [hnext]
  · next hnext => rw [hnext]

theorem Separator.ends {separator rest : List Char} (hs : Separator separator) :
    Ends (separator ++ rest) := by
  intro c hc
  cases hs with
  | @comma before after hbefore =>
    cases before with
    | nil => exact .inr (Option.some.inj hc).symm
    | cons b before =>
      obtain rfl : b = c := Option.some.inj hc
      exact .inl (blanks_iff.mp hbefore b List.mem_cons_self)
  | blanks hne htext =>
    obtain ⟨b, text, rfl⟩ := List.exists_cons_of_ne_nil hne
    obtain rfl : b = c := Option.some.inj hc
    exact .inl (blanks_iff.mp htext b List.mem_cons_self)

theorem Following.ends {own rest : List Char} {ws : List Word} (h : Following own ws)
    (hrest : Ends rest) : Ends (own ++ rest) := by
  cases h with
  | nil => exact hrest
  | cons hseparator =>
    rw [List.append_assoc]
    exact hseparator.ends

/-- **Words that are written one after another** are read, up to where no other follows. -/
theorem wordsOnto_append {own rest : List Char} {ws : List Word} (h : Following own ws)
    (hrest : Ends rest) (hnext : next? false rest = none) (acc : Array Word) :
    wordsOnto false acc (own ++ rest) = (acc ++ ws.toArray, rest) := by
  induction h generalizing acc with
  | nil =>
    rw [wordsOnto_eq, List.nil_append, hnext]
    simp
  | cons hseparator hw hfollowing ih =>
    rw [wordsOnto_eq, next?_false, List.append_assoc, List.append_assoc,
      separator?_append hseparator hw.not_ends, Option.bind_some,
      word?_append hw (hfollowing.ends hrest).halts]
    dsimp only
    rw [ih]
    simp

/-- **Words that are read one after another** are written there. -/
theorem exists_of_wordsOnto {acc words : Array Word} {text rest : List Char}
    (h : wordsOnto false acc text = (words, rest)) :
    ∃ own ws, text = own ++ rest ∧ Following own ws ∧ words = acc ++ ws.toArray := by
  rw [wordsOnto_eq] at h
  cases hnext : next? false text with
  | none =>
    rw [hnext] at h
    cases h
    exact ⟨[], [], rfl, .nil, by simp⟩
  | some read =>
    obtain ⟨w, behind⟩ := read
    rw [hnext] at h
    obtain ⟨own, ws, rfl, hfollowing, rfl⟩ := exists_of_wordsOnto h
    rw [next?_false, Option.bind_eq_some_iff] at hnext
    obtain ⟨start, hseparator, hword⟩ := hnext
    obtain ⟨separator, rfl, hs⟩ := exists_of_separator? hseparator
    obtain ⟨text, rfl, hw⟩ := exists_of_word? hword
    refine ⟨separator ++ (text ++ own), w :: ws, ?_, .cons hs hw hfollowing, by simp⟩
    simp only [List.append_assoc]
termination_by text.length
decreasing_by exact length_of_next? hnext

/-! ## Whole texts -/

/-- What may stand behind the last word does not go on with it, and no other word follows. -/
theorem Ending.ends {rest : List Char} (h : Ending rest) :
    Ends rest ∧ next? false rest = none := by
  rw [next?_false]
  cases h with
  | blanks h =>
    have hdrop : rest.dropWhile isBlank = [] := List.dropWhile_eq_nil_iff.mpr (blanks_iff.mp h)
    refine ⟨fun c hc => .inl (blanks_iff.mp h c (List.mem_of_mem_head? hc)), ?_⟩
    unfold separator?
    rw [hdrop]
    dsimp only
    split <;> rfl
  | @comma text h =>
    have hdrop : text.dropWhile isBlank = [] := List.dropWhile_eq_nil_iff.mpr (blanks_iff.mp h)
    refine ⟨fun c hc => .inr (Option.some.inj hc).symm, ?_⟩
    have hcomma : separator? (',' :: text) = some (text.dropWhile isBlank) := rfl
    rw [hcomma, hdrop]
    rfl

/-- No word starts with what may stand behind the last one. -/
theorem Ending.word?_dropWhile {rest : List Char} (h : Ending rest) :
    word? (rest.dropWhile isBlank) = none ∧ Ending (rest.dropWhile isBlank) := by
  cases h with
  | blanks h =>
    rw [List.dropWhile_eq_nil_iff.mpr (blanks_iff.mp h)]
    exact ⟨rfl, .blanks fun c hc => absurd hc List.not_mem_nil⟩
  | comma h => exact ⟨rfl, .comma h⟩

/-- **The check of what stands behind the last word.** -/
theorem all_isBlank_iff {rest : List Char} :
    (match rest with
      | ',' :: text => text
      | text => text).all isBlank = true ↔ Ending rest := by
  rw [List.all_eq_true, ← blanks_iff]
  constructor
  · intro h
    split at h
    · exact .comma h
    · exact .blanks h
  · intro h
    cases h with
    | blanks h =>
      split
      · exact fun c hc => h c (List.mem_cons_of_mem _ hc)
      · exact h
    | comma h => exact h

/-- A text that starts with no word. -/
theorem words?_of_none {text : List Char} {ws : List Word}
    (hword : word? (text.dropWhile isBlank) = none) :
    words? text = some ws ↔ Ending (text.dropWhile isBlank) ∧ ws = [] := by
  unfold words?
  simp only [hword]
  refine Option.ite_none_right_eq_some.trans (and_congr all_isBlank_iff ?_)
  rw [Option.some.injEq, eq_comm]

/-- A text that starts with words, up to `rest`. -/
theorem words?_of_some {text behind rest : List Char} {w : Word} {words : Array Word}
    {ws : List Word} (hword : word? (text.dropWhile isBlank) = some (w, behind))
    (hwords : wordsOnto false #[w] behind = (words, rest)) :
    words? text = some ws ↔ Ending rest ∧ ws = words.toList := by
  unfold words?
  simp only [hword, hwords]
  refine Option.ite_none_right_eq_some.trans (and_congr all_isBlank_iff ?_)
  rw [Option.some.injEq, eq_comm]

/-- **What is read as a dump** is one. -/
theorem isDump_of_words? {text : List Char} {ws : List Word} (h : words? text = some ws) :
    IsDump text ws := by
  have hbefore : Blanks (text.takeWhile isBlank) :=
    blanks_iff.mpr fun c hc => List.mem_takeWhile_imp hc
  rw [← List.takeWhile_append_dropWhile (p := isBlank) (l := text)]
  cases hword : word? (text.dropWhile isBlank) with
  | none =>
    obtain ⟨hending, rfl⟩ := (words?_of_none hword).mp h
    exact .intro hbefore .nil hending
  | some read =>
    obtain ⟨w, behind⟩ := read
    cases hwords : wordsOnto false #[w] behind with
    | mk words rest =>
      obtain ⟨hending, rfl⟩ := (words?_of_some hword hwords).mp h
      obtain ⟨own, hstart, hw⟩ := exists_of_word? hword
      obtain ⟨others, ws, rfl, hfollowing, rfl⟩ := exists_of_wordsOnto hwords
      rw [hstart, ← List.append_assoc own]
      have hbody : Separated (own ++ others) (#[w] ++ ws.toArray).toList := by
        simpa using Separated.cons hw hfollowing
      exact .intro hbefore hbody hending

/-- **A dump** is read, and its words are found. -/
theorem IsDump.words? {text : List Char} {ws : List Word} (h : IsDump text ws) :
    words? text = some ws := by
  cases h with
  | @intro before _ ending _ hbefore hbody hending =>
    obtain ⟨hends, hnext⟩ := hending.ends
    cases hbody with
    | nil =>
      have hdrop : (before ++ ([] ++ ending)).dropWhile isBlank = ending.dropWhile isBlank :=
        List.dropWhile_append_of_pos (blanks_iff.mp hbefore)
      obtain ⟨hnone, hending⟩ := hending.word?_dropWhile
      rw [← hdrop] at hnone hending
      exact (words?_of_none hnone).mpr ⟨hending, rfl⟩
    | @cons own others w _ hw hfollowing =>
      rw [List.append_assoc]
      have hdrop : (before ++ (own ++ (others ++ ending))).dropWhile isBlank =
          own ++ (others ++ ending) :=
        (span_append (blanks_iff.mp hbefore) fun c hc => (hw.not_ends c hc).1).2
      have hword := word?_append hw (hfollowing.ends hends).halts
      rw [← hdrop] at hword
      have hwords := wordsOnto_append hfollowing hends hnext #[w]
      exact (words?_of_some hword hwords).mpr ⟨hending, by simp⟩

/-- **The words of a dump.** -/
theorem words?_eq_some_iff {text : List Char} {ws : List Word} :
    words? text = some ws ↔ IsDump text ws :=
  ⟨isDump_of_words?, IsDump.words?⟩

theorem parse_eq_ok_iff {text : String} {ws : List Word} :
    parse text = .ok ws ↔ IsDump text.toList ws := by
  rw [← words?_eq_some_iff, parse]
  cases words? text.toList <;> simp

theorem parse_eq_error_iff {text : String} {e : Error} :
    parse text = .error e ↔ (¬ ∃ ws, IsDump text.toList ws) ∧
      e = .invalidDump (String.ofList (culprit text.toList)) := by
  simp only [← words?_eq_some_iff, parse]
  cases words? text.toList <;> simp [eq_comm]

/-- **The parser accepts the dumps and no other text.** A text is read as some words exactly if it
is a dump of them; the words of a dump do not depend on how the text is taken apart; and a text is
refused exactly if it is no dump, with its culprit in the error. -/
theorem parse_accepts (text : String) :
    (∀ ws, parse text = .ok ws ↔ IsDump text.toList ws) ∧
    (∀ ws ws', IsDump text.toList ws → IsDump text.toList ws' → ws = ws') ∧
    ∀ e, parse text = .error e ↔ (¬ ∃ ws, IsDump text.toList ws) ∧
      e = .invalidDump (String.ofList (culprit text.toList)) := by
  refine ⟨fun ws => parse_eq_ok_iff, fun ws ws' h h' => ?_, fun e => parse_eq_error_iff⟩
  rw [← words?_eq_some_iff] at h h'
  exact Option.some.inj (h.symm.trans h')

example : parse "0x07230203 00010000\n  0X0, 5,0\n" = .ok [0x07230203, 0x00010000, 0, 5, 0] := by
  cbv

end Spirv.WordDump

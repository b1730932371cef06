import Spirv.Error
import Spirv.Text.WhiteSpace

/-!
# Word dumps

A binary written down as text: hexadecimal words, optionally marked with `0x`, with blanks or a
comma between them.

* `WordDump.word?`, `WordDump.separator?`: the parts of a dump at the start of a text.
* `WordDump.parse`: the words of a dump.
* `WordDump.culprit`: the piece of a text that is blamed when it is no dump.
-/

namespace Spirv.WordDump

/-- The blanks of a dump: space, tab, carriage return and line feed. -/
def isBlank (c : Char) : Bool := c == ' ' || c == '\t' || c == '\r' || c == '\n'

/-- A hexadecimal digit in either case. -/
def isHexDigit (c : Char) : Bool :=
  ('0' ≤ c && c ≤ '9') || ('a' ≤ c && c ≤ 'f') || ('A' ≤ c && c ≤ 'F')

/-- The value of a hexadecimal digit. -/
def digitValue (c : Char) : Nat :=
  if c ≤ '9' then c.toNat - '0'.toNat
  else if c ≤ 'F' then c.toNat - 'A'.toNat + 10
  else c.toNat - 'a'.toNat + 10

/-- The number that hexadecimal digits stand for, the first digit being the highest. -/
def numberValue (digits : List Char) : Nat := digits.foldl (fun n c => 16 * n + digitValue c) 0

/-- What is left of a text when the mark `0x` or `0X` is taken from its start. -/
def dropMark : List Char → List Char
  | '0' :: 'x' :: rest => rest
  | '0' :: 'X' :: rest => rest
  | text => text

/-- The word at the start of a text and the text behind it. There is at least one digit, leading
zeros do not count, and the value fits a word. -/
def word? (text : List Char) : Option (Word × List Char) :=
  let digits := (dropMark text).takeWhile isHexDigit
  if digits.isEmpty || 0x100000000 ≤ numberValue digits then none
  else some (.ofNat (numberValue digits), (dropMark text).dropWhile isHexDigit)

/-- The text behind the separator at the start of a text: a comma with optional blanks around it,
or blanks. -/
def separator? (text : List Char) : Option (List Char) :=
  match text.dropWhile isBlank with
  | ',' :: rest => some (rest.dropWhile isBlank)
  | rest => if text.head?.any isBlank then some rest else none

/-- The word behind the separator at the start of a text. If the separator is `optional`, it may be
missing. -/
def next? (optional : Bool) (text : List Char) : Option (Word × List Char) :=
  match separator? text with
  | some rest => word? rest
  | none => if optional then word? text else none

/-! ## Lengths -/

theorem length_dropMark_le (text : List Char) : (dropMark text).length ≤ text.length := by
  unfold dropMark
  split <;> simp <;> omega

theorem length_of_word? {text rest : List Char} {w : Word} (h : word? text = some (w, rest)) :
    rest.length < text.length := by
  unfold word? at h
  dsimp only at h
  split at h
  · contradiction
  · next hd =>
    simp only [Bool.or_eq_true, List.isEmpty_iff, not_or] at hd
    cases h
    have hlen := congrArg List.length
      (List.takeWhile_append_dropWhile (p := isHexDigit) (l := dropMark text))
    have hpos := List.length_pos_iff.mpr hd.1
    have hmark := length_dropMark_le text
    rw [List.length_append] at hlen
    omega

theorem length_of_separator? {text rest : List Char} (h : separator? text = some rest) :
    rest.length ≤ text.length := by
  have hdrop : ∀ l : List Char, (l.dropWhile isBlank).length ≤ l.length := fun l =>
    (List.dropWhile_sublist isBlank).length_le
  have htext := hdrop text
  unfold separator? at h
  split at h
  · next r hr =>
    cases h
    have := hdrop r
    rw [hr, List.length_cons] at htext
    omega
  · split at h
    · cases h
      exact htext
    · contradiction

/-- Every word makes progress. -/
theorem length_of_next? {optional : Bool} {text rest : List Char} {w : Word}
    (h : next? optional text = some (w, rest)) : rest.length < text.length := by
  unfold next? at h
  split at h
  · next r hr => exact Nat.lt_of_lt_of_le (length_of_word? h) (length_of_separator? hr)
  · split at h
    · exact length_of_word? h
    · contradiction

/-! ## Dumps -/

/-- Appends to `acc` the words that follow, each behind its separator. The second component is the
text in front of the first that is missing. -/
def wordsOnto (optional : Bool) (acc : Array Word) (text : List Char) : Array Word × List Char :=
  match _h : next? optional text with
  | none => (acc, text)
  | some (w, rest) => wordsOnto optional (acc.push w) rest
termination_by text.length
decreasing_by exact length_of_next? _h

/-- The words of a dump. A single comma may stand directly behind the last one. -/
def words? (text : List Char) : Option (List Word) :=
  let start := text.dropWhile isBlank
  let (words, rest) :=
    match word? start with
    | none => (#[], start)
    | some (w, rest) => wordsOnto false #[w] rest
  let rest :=
    match rest with
    | ',' :: rest => rest
    | rest => rest
  if rest.all isBlank then some words.toList else none

/-- The piece of a text that is blamed when it is no dump: the first token behind the words that can
be read without regard to missing separators. Here any white space separates tokens. -/
def culprit (text : List Char) : List Char :=
  let (_, rest) := wordsOnto true #[] text
  (rest.dropWhile fun c => c == ',' || isWhiteSpace c).takeWhile fun c => !isWhiteSpace c

/-- The words of a dump. -/
def parse (text : String) : Except Error (List Word) :=
  match words? text.toList with
  | some words => .ok words
  | none => .error (.invalidDump (String.ofList (culprit text.toList)))

end Spirv.WordDump

/-!
# Fragments

Pieces of disassembly text, what each of them represents and how it is decorated. Reading a module
never depends on the decoration.

* `Highlight`: what a piece of text represents.
* `Palette`: the markers that go around each kind of text; `Palette.plain` has none and
  `Palette.ansi` colours a terminal.
* `Fragment`, `Fragment.render`: a piece of text and its decorated form.
-/

namespace Spirv

/-- What a piece of text represents. -/
inductive Highlight where
  /-- The block that describes the header. -/
  | comment
  | id
  | resultId
  /-- Numbers and the names of extended instructions. -/
  | literal
  /-- The contents of a string, inside its quotes. -/
  | string
deriving DecidableEq

/-- The text written before and after a decorated piece. -/
structure Markers where
  before : String
  after : String
deriving DecidableEq

/-- The markers of each kind of text. -/
structure Palette where
  markers : Highlight → Markers

namespace Palette

/-- No decoration. -/
def plain : Palette := ⟨fun _ => ⟨"", ""⟩⟩

/-- The escape sequence that starts a colour on a terminal. -/
def ansiStart : Highlight → String
  | .comment => "\x1b[1;30m"
  | .id => "\x1b[33m"
  | .resultId => "\x1b[34m"
  | .literal => "\x1b[31m"
  | .string => "\x1b[32m"

/-- The colours of a terminal: grey comments, yellow ids, blue results, red literals and green
strings. -/
def ansi : Palette := ⟨fun h => ⟨ansiStart h, "\x1b[0m"⟩⟩

/-- The palette for text that is or is not to be coloured. -/
def ofColor (color : Bool) : Palette := if color then ansi else plain

/-- A text between the markers of what it represents. -/
def decorate (p : Palette) (h : Highlight) (text : String) : String :=
  (p.markers h).before ++ text ++ (p.markers h).after

@[simp] theorem decorate_plain (h : Highlight) (text : String) : plain.decorate h text = text := by
  simp [decorate, plain]

end Palette

/-- A piece of disassembly text. -/
structure Fragment where
  /-- What the text represents; nothing for text that is never decorated, such as the names of
  enumerants. -/
  highlight : Option Highlight
  text : String
deriving DecidableEq

/-- The written form of a fragment. Strings are quoted, with their markers inside the quotes. -/
def Fragment.render (p : Palette) (f : Fragment) : String :=
  match f.highlight with
  | none => f.text
  | some .string => "\"" ++ p.decorate .string f.text ++ "\""
  | some h => p.decorate h f.text

end Spirv

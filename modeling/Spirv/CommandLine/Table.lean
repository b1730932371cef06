import Spirv.Grammar.Basic
import Spirv.Header

/-!
# Tables

* `Table`: titles and rows of cells, and how the lines between them are drawn.
* `Header.table`: the fields of a header as a table.
* `Table.layout`: the text of a table.
-/

namespace Spirv

namespace CommandLine

/-- A cell of a table. -/
structure Cell where
  text : String
  /-- The letters of its style: `l` and `r` are for the side to which the text is moved, `b` is for
  bold and `u` for underlined text. -/
  style : String := ""

/-- How a table is drawn. -/
structure TableFormat where
  /-- What stands between two columns. -/
  column : Char
  /-- What stands at both ends of a row. -/
  border : Char
  /-- What the line below the titles consists of. -/
  line : Char
  /-- What stands in that line between two columns. -/
  junction : Char
  /-- What stands at both ends of that line. -/
  lineEnd : Char
  /-- The number of blanks on either side of a cell. -/
  padding : Nat

/-- A table. -/
structure Table where
  format : TableFormat
  titles : List Cell
  rows : List (List Cell)

/-! ## The table of a header -/

/-- Columns with a line between them, and a line below the titles. -/
def headerFormat : TableFormat where
  column := '│'
  border := ' '
  line := '─'
  junction := '┼'
  lineEnd := ' '
  padding := 1

end CommandLine

/-- The table that shows a header. The version is split into its major and its minor number. -/
def Header.table (g : Grammar) (h : Header) : CommandLine.Table :=
  let major := h.version >>> 16 &&& 0xFF
  let minor := h.version >>> 8 &&& 0xFF
  let row (name value : String) : List CommandLine.Cell := [⟨name, "r"⟩, ⟨value, ""⟩]
  { format := CommandLine.headerFormat
    titles := [⟨"Field", "ubr"⟩, ⟨"Value", "ubl"⟩]
    rows := [
      row "Magic" h.magic.hexPadded,
      row "Version" (major.decimal ++ "." ++ minor.decimal ++ " (" ++ h.version.decimal ++ ")"),
      row "Generator" (g.generator h.generator ++ " (" ++ h.generator.decimal ++ ")"),
      row "Bound" h.bound.decimal,
      row "Schema" h.schema.decimal] }

/-! ## Layout -/

namespace CommandLine.Table

/-- The widths of the columns. -/
def widths (t : Table) : List Nat :=
  let lengths := (t.titles :: t.rows).map (·.map (·.text.length))
  lengths.foldl (List.zipWith max) (t.titles.map (·.text.length))

/-- The text of a cell, filled up with blanks to the width of its column. -/
def filled (width : Nat) (c : Cell) : String :=
  let blanks := "".pushn ' ' (width - c.text.length)
  if c.style.contains 'r' then blanks ++ c.text else c.text ++ blanks

/-- A line of a row. -/
def rowLine (f : TableFormat) (widths : List Nat) (row : List Cell) : String :=
  let pad := "".pushn ' ' f.padding
  let cells := List.zipWith (fun width c => pad ++ filled width c ++ pad) widths row
  let border := String.singleton f.border
  border ++ (String.singleton f.column).intercalate cells ++ border ++ "\n"

/-- The line below the titles. -/
def titleLine (f : TableFormat) (widths : List Nat) : String :=
  let strokes := widths.map fun width => "".pushn f.line (width + 2 * f.padding)
  let lineEnd := String.singleton f.lineEnd
  lineEnd ++ (String.singleton f.junction).intercalate strokes ++ lineEnd ++ "\n"

/-- The text of a table without bold or underlined parts. -/
def layout (t : Table) : String :=
  rowLine t.format t.widths t.titles ++ titleLine t.format t.widths
    ++ String.join (t.rows.map (rowLine t.format t.widths))

end CommandLine.Table

end Spirv

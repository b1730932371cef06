import Spirv.CommandLine.Arguments
import Spirv.CommandLine.Table
import Spirv.Log

/-!
# Frontends

What the program leaves to others: to read a command line, to draw a table and to choose the records
that are shown. A session works with any frontend.

* `Frontend`: the three tasks.
* `Frontend.standard`: the one that the program is built with.
-/

namespace Spirv.CommandLine

/-- What the program leaves to others. -/
structure Frontend where
  /-- The options of a command line, or the answer to one that is not carried out. -/
  parse : List String → Except Reply Options
  /-- The text of a table. -/
  layout : Table → String
  /-- Whether a record of the second level is shown when the threshold is the first. -/
  shows : Level → Level → Bool

/-- The frontend that the program is built with. -/
def Frontend.standard : Frontend where
  parse arguments := (Options.parse arguments).mapError Interruption.reply
  layout := Table.layout
  shows threshold level := level.rank ≤ threshold.rank

end Spirv.CommandLine

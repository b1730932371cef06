/-!
# Log

What the library reports while it works.

* `Record`: a message and how much it matters.
* `Log`: records in the order in which they were made.
* `Logged`: the outcome of a computation with its log.
-/

namespace Spirv

/-- How much a record matters, from most to least. -/
inductive Level where
  | error | warn | info | debug | trace
deriving DecidableEq

/-- The place of a level in the order from most to least. -/
def Level.rank : Level → Nat
  | error => 0
  | warn => 1
  | info => 2
  | debug => 3
  | trace => 4

/-- One report. -/
structure Record where
  level : Level
  message : String
deriving DecidableEq

/-- The reports of a computation, oldest first. -/
abbrev Log := Array Record

/-- What a computation came to and what it reported. -/
structure Logged (α : Type) where
  outcome : α
  log : Log

end Spirv

import Spirv.Error

/-!
# Sinks

* `Sink`: a destination for text that may have room for a limited number of bytes only.
* `Sink.write`: adds a piece of text. A piece that does not fit is cut at the capacity.
-/

namespace Spirv

/-- A destination for text. -/
structure Sink where
  /-- The number of bytes that the sink has room for, if it is limited. -/
  capacity : Option Nat := none
  /-- What has been written. -/
  bytes : ByteArray := .empty

namespace Sink

/-- Adds a piece of text. If it does not fit, as much of it as does is added and writing fails. -/
def write (s : Sink) (piece : String) : Sink × Option Error :=
  let bytes := s.bytes ++ piece.toUTF8
  match s.capacity with
  | none => ({ s with bytes }, none)
  | some capacity =>
    if bytes.size ≤ capacity then ({ s with bytes }, none)
    else ({ s with bytes := bytes.extract 0 capacity }, some (.transfer .noRoom))

end Sink

end Spirv

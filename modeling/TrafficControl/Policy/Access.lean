import TrafficControl.Json.Codec

/-!
# Access modes

How a unit or a cell may currently be used.
-/

namespace TrafficControl

/-- How a place may currently be used. -/
inductive AccessMode where
  /-- Reads and writes are served. -/
  | readWrite
  /-- Only requests that do not write are served. -/
  | read
  /-- Nothing is served. -/
  | none
deriving DecidableEq, Inhabited

namespace AccessMode

/-- The mode as a document writes it. -/
def codec : Codec AccessMode :=
  .enumeration [(readWrite, "READ_WRITE"), (read, "READ"), (none, "NONE")]

/-- Whether a place of this mode serves a request, which may be a write. -/
def serves (m : AccessMode) (write : Bool) : Bool :=
  match m with
  | readWrite => true
  | read => !write
  | none => false

end AccessMode

end TrafficControl

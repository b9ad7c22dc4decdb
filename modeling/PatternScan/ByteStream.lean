/-!
# Byte streams that may break off

A stream delivers some bytes and then stops, at a clean end or with a fault.
-/

namespace PatternScan

/-- The kinds of faults that a reader of a stream tells apart. -/
inductive Fault.Kind
  /-- More bytes were promised than came. -/
  | unexpectedEnd
  /-- The bytes contradict the format they are in. -/
  | invalid
  /-- A failure of the transport. -/
  | other
deriving DecidableEq, Repr

/-- A failure to deliver further bytes. -/
structure Fault where
  kind : Fault.Kind
  text : String
deriving DecidableEq, Repr

/-- How a stream stops. -/
inductive Ending
  | clean
  | fault (f : Fault)
deriving DecidableEq, Repr

/-- The bytes a stream delivers before it stops, and how it stops. -/
structure ByteStream where
  bytes : ByteArray
  ending : Ending

end PatternScan

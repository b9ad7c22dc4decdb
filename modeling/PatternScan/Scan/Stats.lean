import PatternScan.Notice

/-!
# Counters of a scan

What a scan has read and found, counted file by file. The counters wrap around at 2^64.
-/

namespace PatternScan

/-- The size in bytes from which on a file is mapped instead of read. -/
def mappedSize : UInt64 :=
  10485760

/-- The counters of a scan. -/
structure ScanStats where
  bytes : UInt64 := 0
  found : UInt64 := 0
  read : UInt64 := 0
  mapped : UInt64 := 0
  failed : UInt64 := 0
deriving DecidableEq, Inhabited, Repr

namespace ScanStats

/-- Counts a scanned file by its size and the number of occurrences found. -/
def countFile (s : ScanStats) (size found : UInt64) : ScanStats :=
  let s := { s with bytes := s.bytes + size, found := s.found + found }
  if mappedSize ≤ size then { s with mapped := s.mapped + 1 } else { s with read := s.read + 1 }

/-- Counts a file that could not be read. -/
def countFailure (s : ScanStats) : ScanStats :=
  { s with failed := s.failed + 1 }

/-- The counters as a notice. -/
def notice (s : ScanStats) : Notice :=
  .scanStats s.bytes s.found s.read s.mapped s.failed

end ScanStats

end PatternScan

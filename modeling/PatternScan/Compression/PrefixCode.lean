/-!
# Canonical prefix codes

A canonical code is given by the code length of every symbol: codes are numbered by length and,
within one length, by symbol.
-/

namespace PatternScan.Compression

/-- A canonical prefix code with code lengths up to 15. -/
structure PrefixCode where
  /-- The number of codes of each length, index 0 unused. -/
  counts : Array Nat
  /-- The symbols in the order of their codes. -/
  symbols : Array Nat
deriving Inhabited

namespace PrefixCode

/-- The longest code length. -/
def maxLength : Nat :=
  15

/-- The code in which symbol `i` has the length `lengths[i]`; a length of 0 leaves the symbol
out. -/
def ofLengths (lengths : Array Nat) : PrefixCode :=
  let perLength := (List.range maxLength).map fun n =>
    (List.range lengths.size).filter fun symbol => lengths.getD symbol 0 = n + 1
  { counts := (0 :: perLength.map List.length).toArray
    symbols := perLength.flatten.toArray }

/-- The number of symbols that have a code. -/
def used (code : PrefixCode) : Nat :=
  code.symbols.size

/-- The codes fill the space of bit strings: every long enough string starts with exactly one. -/
def complete (code : PrefixCode) : Bool :=
  (List.range maxLength).foldl
    (fun total n => total + code.counts.getD (n + 1) 0 <<< (maxLength - (n + 1))) 0 =
      1 <<< maxLength

end PrefixCode

end PatternScan.Compression

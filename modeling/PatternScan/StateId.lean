/-!
# State identifiers

States of a trie and of the automaton compiled from it are numbered densely. Two numbers are
reserved: the sentinel, which ends every chain of links and is never entered, and the root, where
every scan starts.
-/

namespace PatternScan

/-- The number of a state. -/
abbrev StateId := Nat

namespace StateId

/-- The reserved "no state", which ends chains of links. -/
def sentinel : StateId := 0

/-- The state every scan starts in; it spells the empty string. -/
def root : StateId := 1

end StateId

/-- A pattern is a string of bytes. -/
abbrev Pattern := List UInt8

end PatternScan

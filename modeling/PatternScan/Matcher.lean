import PatternScan.Pool

/-!
# An automaton with its buffers

A matcher owns an automaton and the pool its pooled searches draw on.
-/

namespace PatternScan

/-- An automaton and its buffer pool. -/
structure Matcher where
  automaton : Automaton
  pool : Pool := Pool.standard

namespace Matcher

/-- A copy: the same tables, with a pool of its own. -/
def copy (m : Matcher) : Matcher :=
  { automaton := m.automaton }

/-- Every occurrence in a text, in a buffer lent by the pool. -/
def findAllPooled (m : Matcher) (text : ByteArray) : Buffer × Matcher :=
  let (b, pool) := m.pool.acquire
  (m.automaton.walk (fun b e => (b.push e.occurrence, true)) text b, { m with pool })

/-- Takes a buffer back. -/
def release (m : Matcher) (b : Buffer) : Matcher :=
  { m with pool := m.pool.release b }

end Matcher

end PatternScan

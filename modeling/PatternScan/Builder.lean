import PatternScan.Notice
import PatternScan.Trie.Table

/-!
# Collecting patterns

A builder threads patterns into a trie and numbers them in the order in which they are added. An
empty pattern is left out and takes no number; a pattern that is already there moves to its newest
number, and the counter still advances.
-/

namespace PatternScan

/-- Patterns collected so far. -/
structure Builder where
  trie : Trie := Trie.empty
  /-- The number of indices handed out, superseded ones included. -/
  patternCount : Nat := 0
deriving DecidableEq, Inhabited

namespace Builder

/-- The number of states of the trie, sentinel and root included. -/
def stateCount (b : Builder) : Nat :=
  b.trie.size

/-- Adds a pattern under the next index; an empty pattern changes nothing. -/
def add (b : Builder) (p : Pattern) : Builder :=
  if p.isEmpty then b
  else { trie := b.trie.insert p b.patternCount, patternCount := b.patternCount + 1 }

/-- Adds patterns in order. -/
def addAll (b : Builder) (ps : List Pattern) : Builder :=
  ps.foldl add b

/-- What adding a pattern gives notice of. -/
def addNotice? (b : Builder) (p : Pattern) : Option Notice :=
  if p.isEmpty then some .emptyPattern
  else do
    let s ← b.trie.follow? StateId.root p
    let node := b.trie.node s
    if node.accepting then some (.superseded b.patternCount node.pattern (b.trie.pathTo s))
    else none

/-- What adding patterns in order gives notice of. -/
def addAllNotices (b : Builder) (ps : List Pattern) : List Notice :=
  (ps.foldl (fun (b, notices) p => (b.add p, (b.addNotice? p).toList ++ notices))
    (b, ([] : List Notice))).2.reverse

/-- The automaton of the patterns. -/
def build (b : Builder) : Automaton :=
  b.trie.compile

/-- What building gives notice of. -/
def buildNotice (b : Builder) : Notice :=
  .built b.patternCount b.stateCount

/-- The automaton of a list of patterns. -/
def automatonOf (ps : List Pattern) : Automaton :=
  (({} : Builder).addAll ps).build

end Builder

end PatternScan

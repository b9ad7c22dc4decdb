import PatternScan.Automaton
import PatternScan.Trie.Links

/-!
# Compiling a trie into an automaton

`Trie.rows` folds the failure links into a total transition table: in breadth-first order, every
state copies the row of its failure target, which is complete by then, and overwrites the bytes it
has edges for. The result is the same as climbing the failure chain for every state and byte.
-/

namespace PatternScan.Trie

/-- A transition row. -/
abbrev Row := Vector StateId 256

/-- The row that leads to the root on every byte. -/
def homeRow : Row :=
  Vector.replicate 256 StateId.root

/-- Overwrites the bytes a state has edges for. -/
def overwrite (row : Row) (edges : List (UInt8 × StateId)) : Row :=
  edges.foldl (fun row (c, u) => row.set c.toNat u c.toNat_lt) row

/-- Sets the row of `s` from the row of its failure target; the root starts from the row that
leads home. -/
def fillRow (t : Trie) (fail : Array StateId) (rows : Array Row) (s : StateId) : Array Row :=
  let row := if s = StateId.root then homeRow
    else rows.getD (fail.getD s StateId.sentinel) homeRow
  rows.setIfInBounds s (overwrite row (t.node s).edges)

/-- The transition row of every state. The sentinel's leads to the root on every byte. -/
def rows (t : Trie) (fail : Array StateId) : Array Row :=
  t.breadthFirst.foldl (t.fillRow fail) (Array.replicate t.size homeRow)

/-- The automaton of a trie: its links and rows, and the patterns that end at its states. -/
def compile (t : Trie) : Automaton :=
  let fail := t.failLinks
  let link := t.dictLinks fail
  let rows := t.rows fail
  ⟨t.nodes.mapIdx fun s n =>
    { next := rows.getD s homeRow
      len := n.len
      link := link.getD s StateId.sentinel
      pattern := n.pattern }⟩

end PatternScan.Trie

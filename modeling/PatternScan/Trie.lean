import PatternScan.StateId

/-!
# The prefix tree of a set of patterns

A trie is an arena of nodes addressed by dense identifiers. It starts with the sentinel and the
root; every further node spells one non-empty prefix of an inserted pattern, and is numbered by the
order in which these prefixes first occur. `Trie.insert` threads a pattern from the root, sharing
the prefixes that are already there, and `Trie.pathTo` reads a node's prefix back along the parents.
-/

namespace PatternScan

/-- A node of the trie. -/
structure Node where
  /-- The label of the edge from the parent. -/
  byte : UInt8 := 0
  parent : StateId := StateId.sentinel
  /-- The children, in ascending order of their bytes. -/
  edges : List (UInt8 × StateId) := []
  /-- The length of the pattern that ends here, or 0. -/
  len : Nat := 0
  /-- The index of that pattern; it says nothing where `len` is 0. -/
  pattern : Nat := 0
deriving DecidableEq, Inhabited

namespace Node

/-- A pattern ends at this node. -/
def accepting (n : Node) : Bool :=
  0 < n.len

/-- Adds an edge, keeping the edges in ascending order of their bytes. -/
def insertEdge (c : UInt8) (u : StateId) : List (UInt8 × StateId) → List (UInt8 × StateId)
  | [] => [(c, u)]
  | (d, v) :: es => if c < d then (c, u) :: (d, v) :: es else (d, v) :: insertEdge c u es

end Node

/-- An arena of nodes: identifier 0 is the sentinel, identifier 1 the root. -/
structure Trie where
  nodes : Array Node
deriving DecidableEq

namespace Trie

/-- The trie of no patterns: sentinel and root. -/
def empty : Trie := ⟨#[{}, {}]⟩

instance : Inhabited Trie := ⟨empty⟩

/-- The number of states, sentinel and root included. -/
def size (t : Trie) : Nat :=
  t.nodes.size

/-- The node of a state; past the end of the arena a node without edges. -/
def node (t : Trie) (s : StateId) : Node :=
  t.nodes.getD s {}

/-- The child of `s` on the byte `c`. -/
def child? (t : Trie) (s : StateId) (c : UInt8) : Option StateId :=
  (t.node s).edges.lookup c

/-- The children of `s`, in ascending order of their bytes. -/
def children (t : Trie) (s : StateId) : List StateId :=
  (t.node s).edges.map (·.2)

/-- The child of `s` on `c`, appended to the arena if it is not there yet. -/
def childOrInsert (t : Trie) (s : StateId) (c : UInt8) : Trie × StateId :=
  match t.child? s c with
  | some u => (t, u)
  | none =>
    let u := t.nodes.size
    let nodes := t.nodes.push { byte := c, parent := s }
    (⟨nodes.modify s fun n => { n with edges := Node.insertEdge c u n.edges }⟩, u)

/-- Threads the bytes of a pattern from `s` on and gives the state where it ends. -/
def thread (t : Trie) (s : StateId) : Pattern → Trie × StateId
  | [] => (t, s)
  | c :: p =>
    let (t, u) := t.childOrInsert s c
    thread t u p

/-- Follows the edges from `s` along a string of bytes, as far as they are there. -/
def follow? (t : Trie) (s : StateId) : Pattern → Option StateId
  | [] => some s
  | c :: p => (t.child? s c).bind (follow? t · p)

/-- Marks `s` as the end of a pattern of length `len` with the given index. -/
def mark (t : Trie) (s : StateId) (len index : Nat) : Trie :=
  ⟨t.nodes.modify s fun n => { n with len := len, pattern := index }⟩

/-- Inserts a pattern under an index, which replaces the index of an equal pattern. -/
def insert (t : Trie) (p : Pattern) (index : Nat) : Trie :=
  let (t, s) := t.thread StateId.root p
  t.mark s p.length index

/-- The bytes from the root to `s`, put in front of `rest`. Parents have smaller numbers than
their children, so the climb ends. -/
def pathOnto (t : Trie) (s : StateId) (rest : Pattern) : Pattern :=
  if _h : StateId.root < s ∧ (t.node s).parent < s then
    pathOnto t (t.node s).parent ((t.node s).byte :: rest)
  else rest
termination_by s
decreasing_by exact _h.2

/-- The string that `s` spells. -/
def pathTo (t : Trie) (s : StateId) : Pattern :=
  t.pathOnto s []

end Trie

end PatternScan

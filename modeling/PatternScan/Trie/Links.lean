import PatternScan.Trie

/-!
# Failure links and dictionary links

The failure link of a state leads to the longest proper suffix of its string that is also in the
trie; the dictionary link leads to the nearest state on the failure chain where a pattern ends. Both
are computed in breadth-first order: when a state is reached, the links of all shallower states are
final, and the failure target of a state is one of these.
-/

namespace PatternScan.Trie

/-- The states of a layer, then those below it, layer by layer; `depth` bounds the layers. -/
def layersFrom (t : Trie) : Nat → List StateId → List StateId
  | 0, _ => []
  | _, [] => []
  | depth + 1, s :: layer =>
    (s :: layer) ++ layersFrom t depth ((s :: layer).flatMap t.children)

/-- Every state from the root downwards in breadth-first order, siblings by ascending byte. -/
def breadthFirst (t : Trie) : List StateId :=
  t.layersFrom t.size [StateId.root]

/-- Climbs the failure chain from `s` to the first state with an edge on `c` and takes that edge;
without one the climb ends at the root. `steps` bounds the climb. -/
def chase (t : Trie) (fail : Array StateId) (c : UInt8) : Nat → StateId → StateId
  | 0, _ => StateId.root
  | steps + 1, s =>
    if s = StateId.sentinel then StateId.root
    else match t.child? s c with
      | some u => u
      | none => chase t fail c steps (fail.getD s StateId.sentinel)

/-- Sets the failure links of the children of `s`, given those of `s` and of all shallower
states. -/
def linkChildren (t : Trie) (fail : Array StateId) (s : StateId) : Array StateId :=
  (t.node s).edges.foldl
    (fun fail (c, u) =>
      fail.setIfInBounds u (t.chase fail c t.size (fail.getD s StateId.sentinel)))
    fail

/-- The failure link of every state; sentinel and root have none. -/
def failLinks (t : Trie) : Array StateId :=
  t.breadthFirst.foldl t.linkChildren (Array.replicate t.size StateId.sentinel)

/-- Sets the dictionary link of `s`: its failure target if a pattern ends there, else what that
target has inherited. -/
def linkDictionary (t : Trie) (fail : Array StateId) (link : Array StateId) (s : StateId) :
    Array StateId :=
  let f := fail.getD s StateId.sentinel
  link.setIfInBounds s (if (t.node f).accepting then f else link.getD f StateId.sentinel)

/-- The dictionary link of every state. -/
def dictLinks (t : Trie) (fail : Array StateId) : Array StateId :=
  t.breadthFirst.foldl (t.linkDictionary fail) (Array.replicate t.size StateId.sentinel)

end PatternScan.Trie

import PatternScan.Automaton

/-!
# Distances from the root

`Automaton.depths` finds for every state the length of the shortest byte string that leads there
from the root, layer by layer: the states found in one layer are those of the next one.
-/

namespace PatternScan.Automaton

/-- The depths known so far, and the states found last, the latest first. -/
structure Search where
  depths : Array (Option Nat)
  found : List StateId

/-- Gives the state `t` a depth unless it has one. -/
def Search.reach (depth : Nat) (search : Search) (t : StateId) : Search :=
  match search.depths[t]? with
  | some none => ⟨search.depths.setIfInBounds t (some depth), t :: search.found⟩
  | _ => search

/-- Reaches every target of a state. -/
def Search.expand (a : Automaton) (depth : Nat) (search : Search) (s : StateId) : Search :=
  (a.cell s).next.toArray.foldl (Search.reach depth) search

/-- Searches on from the states of a layer, which are reached after `depth - 1` bytes; `layers`
bounds the layers that follow. -/
def depthsFrom (a : Automaton) : Nat → Nat → Array (Option Nat) → List StateId →
    Array (Option Nat)
  | 0, _, depths, _ => depths
  | _, _, depths, [] => depths
  | layers + 1, depth, depths, s :: layer =>
    let search := (s :: layer).foldl (Search.expand a depth) ⟨depths, []⟩
    depthsFrom a layers (depth + 1) search.depths search.found.reverse

/-- The length of the shortest byte string that leads from the root to each state, `none` where no
string does. Every layer finds a state, so there are no more layers than states. -/
def depths (a : Automaton) : Array (Option Nat) :=
  a.depthsFrom a.size 1
    ((Array.replicate a.size none).setIfInBounds StateId.root (some 0)) [StateId.root]

end PatternScan.Automaton

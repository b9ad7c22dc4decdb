import PatternScan.Proofs.Container.Queue
import PatternScan.Proofs.Container.Words

/-!
# Depths are shortest ways

A table of any size whose entries are states is searched to the end, whatever cycles its rows make
and wherever they lead, also to the sentinel: every state gets the length of a shortest byte string
that leads to it, and no depth exactly if none does (`depths_shortest`). The search with a queue on
the rows as they lie one after the other has the same result, as `transitions` holds the rows
(`holdsRows_transitions`).
-/

namespace PatternScan.Automaton

variable {a : Automaton}

/-- The rows of a table, one after the other. -/
def transitions (a : Automaton) : Array StateId :=
  (a.cells.toList.flatMap fun cell => cell.next.toList).toArray

theorem length_row (cell : Cell) : cell.next.toList.length = 256 :=
  Vector.length_toList

theorem size_transitions (a : Automaton) : a.transitions.size = 256 * a.size := by
  rw [transitions, List.size_toArray, Container.length_flatMap_of_length length_row]
  rfl

theorem extract_transitions {s : StateId} (hs : s < a.size) :
    a.transitions.extract (256 * s) (256 * (s + 1)) = (a.cell s).next.toArray := by
  have hrow := Container.take_drop_flatMap length_row a.cells.toList hs
  have hcell : a.cell s = a.cells.toList.get ⟨s, hs⟩ := cell_of_lt hs
  rw [hcell, ← Array.toList_inj, Array.toList_extract, List.extract_eq_take_drop, transitions,
    Nat.mul_add_one, Nat.add_sub_cancel_left]
  exact hrow

theorem step_mem_transitions {s : StateId} (hs : s < a.size) (c : UInt8) :
    (a.cell s).step c ∈ a.transitions := by
  rw [transitions, List.mem_toArray, List.mem_flatMap]
  refine ⟨a.cells[s], Array.getElem_mem_toList hs, ?_⟩
  rw [← cell_of_lt hs]
  exact mem_next.2 ⟨c, rfl⟩

theorem closed_of_mem_transitions (hsize : 2 ≤ a.size) (h : ∀ t ∈ a.transitions, t < a.size) :
    a.Closed :=
  ⟨hsize, fun _ hs c => h _ (step_mem_transitions hs c)⟩

open Container.Guarded in
theorem holdsRows_transitions (ha : a.Closed) (hword : 256 * a.size < UInt64.size) :
    HoldsRows a a.transitions :=
  ⟨a.size_transitions, hword, fun _ hs => extract_transitions hs, ha⟩

/-- The depths are the distances from the root, and there is none where no byte string leads. -/
structure Measures (a : Automaton) (depths : Array (Option Nat)) : Prop where
  size : depths.size = a.size
  some_iff : ∀ s d, depths[s]? = some (some d) ↔ a.Distance s d
  none_iff : ∀ s, s < a.size → (depths[s]? = some none ↔ ∀ w, a.after w ≠ s)

theorem measures_depths (ha : a.Closed) : a.Measures a.depths where
  size := a.size_depths
  some_iff := getElem?_depths ha
  none_iff s hs := by
    constructor
    · rintro hnone w rfl
      obtain ⟨d, -, hd⟩ := Distance.of_after a w
      rw [(getElem?_depths ha _ d).2 hd] at hnone
      exact nomatch hnone
    · intro hfar
      have hlt : s < a.depths.size := a.size_depths.symm ▸ hs
      rw [Array.getElem?_eq_getElem hlt]
      cases hd : a.depths[s] with
      | none => rfl
      | some d =>
        have hdist := (getElem?_depths ha s d).1 (by rw [Array.getElem?_eq_getElem hlt, hd])
        obtain ⟨w, -, hw⟩ := hdist.exists_after
        exact absurd hw (hfar w)

/-- **The search finds the shortest ways** in every table whose entries are states, and so does the
queue on the rows as far as their places are words. -/
theorem depths_shortest (hsize : 2 ≤ a.size) (hbelow : ∀ t ∈ a.transitions, t < a.size) :
    a.Measures a.depths ∧ (256 * a.size < UInt64.size → ∃ taken,
      Container.Guarded.Gives (Container.Guarded.search a.transitions a.size) (.ok a.depths)
        taken) := by
  have ha := closed_of_mem_transitions hsize hbelow
  refine ⟨measures_depths ha, fun hword => ?_⟩
  obtain ⟨taken, hgives, -⟩ := Container.Guarded.gives_search (holdsRows_transitions ha hword)
  exact ⟨taken, hgives⟩

/-- A cell that leads to one state on all bytes. -/
def straight (t : StateId) : Cell :=
  { next := Vector.replicate 256 t }

/-- All bytes lead from the root round a cycle through the sentinel, and nothing leads to the last
state. -/
def cycle : Automaton :=
  ⟨([StateId.root, 2, StateId.sentinel, StateId.root].map straight).toArray⟩

theorem lt_size_of_mem_transitions_cycle {t : StateId} (ht : t ∈ cycle.transitions) :
    t < cycle.size := by
  rw [transitions, List.mem_toArray] at ht
  obtain ⟨cell, hcell, ht⟩ := List.mem_flatMap.1 ht
  obtain ⟨u, hu, rfl⟩ := List.mem_map.1 hcell
  have hall : ∀ u ∈ [StateId.root, 2, StateId.sentinel, StateId.root], u < cycle.size := by
    decide
  rw [straight, Vector.toList_replicate] at ht
  rw [List.eq_of_mem_replicate ht]
  exact hall u hu

theorem depths_shortest_cycle : 2 ≤ cycle.size ∧ (∀ t ∈ cycle.transitions, t < cycle.size) ∧
    cycle.Measures cycle.depths ∧ ∃ taken,
      Container.Guarded.Gives (Container.Guarded.search cycle.transitions cycle.size)
        (.ok cycle.depths) taken := by
  have hsize : 2 ≤ cycle.size := by decide
  have hbelow : ∀ t ∈ cycle.transitions, t < cycle.size := fun _ =>
    lt_size_of_mem_transitions_cycle
  obtain ⟨hmeasures, hsearch⟩ := depths_shortest hsize hbelow
  exact ⟨hsize, hbelow, hmeasures, hsearch (by decide)⟩

end PatternScan.Automaton

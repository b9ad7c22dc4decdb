import Mathlib.Data.List.Nodup
import PatternScan.Proofs.Container.Check
import PatternScan.Proofs.Container.Guarded

/-!
# The search for distances with a queue

`Guarded.drain` is the search on the column of transitions as it lies in a container: it takes a
state off the front of a queue, cuts the row of that state out of the column and puts every state
that it meets for the first time at the back. Nothing bounds the number of its turns; the states
without a depth and those in the queue become fewer by one with each (`count_none_reach`).

`gives_search` says that the search stays inside its arrays where the transitions stay inside the
table, that it finds the depths that are found layer by layer, and that it takes no state twice. A
layer is a stretch of the queue: when all its states have been taken, the states of the next one are
what is left (`gives_drain_layer`).
-/

namespace PatternScan.Automaton

/-! ## More on the search by layers -/

section Layers

variable {a : Automaton} {depths : Array (Option Nat)} {k : Nat} {targets : StateId → Prop}
  {search : Search}

theorem size_eq_of_outside {α : Type} {xs : Array α} {n : Nat}
    (h : ∀ i, xs[i]? = none ↔ n ≤ i) : xs.size = n :=
  Nat.le_antisymm (Array.getElem?_eq_none_iff.1 ((h n).2 (Nat.le_refl n)))
    ((h xs.size).1 (Array.getElem?_eq_none (Nat.le_refl _)))

theorem SearchInv.size_eq {layer : List StateId} (h : a.SearchInv k depths layer) :
    depths.size = a.size :=
  size_eq_of_outside h.outside

theorem Expanded.size_eq (h : Expanded depths k targets search) :
    search.depths.size = depths.size := by
  refine size_eq_of_outside fun s => ?_
  rw [← Array.getElem?_eq_none_iff, h.depths]
  split
  · rename_i hmem
    rw [((h.found s).1 hmem).2]
    simp
  · rfl

/-- What is found now or still without a depth had none before. -/
theorem Expanded.eq_none (h : Expanded depths k targets search) {s : StateId}
    (hs : s ∈ search.found ∨ search.depths[s]? = some none) : depths[s]? = some none := by
  rcases hs with hmem | hnone
  · exact ((h.found s).1 hmem).2
  · rw [h.depths] at hnone
    split at hnone
    · cases hnone
    · exact hnone

theorem size_depthsFrom (a : Automaton) (layers k : Nat) (depths : Array (Option Nat))
    (layer : List StateId) : (a.depthsFrom layers k depths layer).size = depths.size := by
  induction layers generalizing k depths layer with
  | zero => rfl
  | succ layers ih =>
    cases layer with
    | nil => rfl
    | cons s layer => exact (ih _ _ _).trans ((expanded_nil depths k).layer a (s :: layer)).size_eq

theorem size_depths (a : Automaton) : a.depths.size = a.size := by
  rw [depths, size_depthsFrom, Array.size_setIfInBounds, Array.size_replicate]

/-- A state is found once, as it has a depth from then on. -/
theorem Expanded.nodup_reach (h : Expanded depths k targets search) (hs : search.found.Nodup)
    (t : StateId) : (Search.reach k search t).found.Nodup := by
  unfold Search.reach
  split
  · rename_i hnone
    refine List.nodup_cons.2 ⟨fun hmem => ?_, hs⟩
    have := h.depths t
    rw [hnone, if_pos hmem] at this
    exact nomatch this
  · exact hs

theorem Expanded.nodup_expand (h : Expanded depths k targets search) (hs : search.found.Nodup)
    (a : Automaton) (s : StateId) : (Search.expand a k search s).found.Nodup := by
  rw [Search.expand, ← Array.foldl_toList]
  generalize (a.cell s).next.toArray.toList = row
  induction row generalizing targets search with
  | nil => exact hs
  | cons t row ih => exact ih (h.reach t) (h.nodup_reach hs t)

theorem Expanded.nodup_layer (h : Expanded depths k targets search) (hs : search.found.Nodup)
    (a : Automaton) (layer : List StateId) :
    (layer.foldl (Search.expand a k) search).found.Nodup := by
  induction layer generalizing targets search with
  | nil => exact hs
  | cons s layer ih => exact ih (h.expand a s) (h.nodup_expand hs a s)

end Layers

end PatternScan.Automaton

namespace PatternScan.Container.Guarded

open Automaton

/-! ## The search -/

/-- Gives a depth to the targets of a row that have none, and puts them at the end of the queue. -/
def reach (depth : Nat) : List StateId → Array (Option Nat) → List StateId →
    Option (Array (Option Nat) × List StateId)
  | [], depths, queue => some (depths, queue)
  | t :: row, depths, queue =>
    match depths[t]? with
    | none => none
    | some (some _) => reach depth row depths queue
    | some none => reach depth row (depths.setIfInBounds t (some depth)) (queue ++ [t])

theorem count_setIfInBounds {depths : Array (Option Nat)} {t : StateId}
    (h : depths[t]? = some none) (d : Nat) :
    (depths.setIfInBounds t (some d)).count none + 1 = depths.count none := by
  obtain ⟨ht, hnone⟩ := Array.getElem?_eq_some_iff.1 h
  have hpos : 0 < depths.count none := Array.count_pos_iff.2 (hnone ▸ Array.getElem_mem ht)
  rw [Array.setIfInBounds, dif_pos ht, Array.count_set, hnone]
  simp
  omega

/-- What leaves the states without a depth comes into the queue. -/
theorem count_none_reach {depth : Nat} {row queue queue' : List StateId}
    {depths depths' : Array (Option Nat)}
    (h : reach depth row depths queue = some (depths', queue')) :
    depths'.count none + queue'.length = depths.count none + queue.length := by
  fun_induction reach depth row depths queue with
  | case1 => cases h; rfl
  | case2 => exact nomatch h
  | case3 t row depths queue d hd ih => exact ih h
  | case4 t row depths queue hd ih =>
    have hcount := count_setIfInBounds hd depth
    have hrest := ih h
    rw [List.length_append, List.length_singleton] at hrest
    omega

/-- Takes states from the queue until it is empty. -/
def drain (next : Array Nat) (depths : Array (Option Nat)) :
    List StateId → Guarded (Array (Option Nat))
  | [] => pure depths
  | s :: queue => do
    take s
    let depth ← access depths s
    let depth ← match depth with
      | none => pure 0
      | some d => word (d + 1)
    let start ← word (256 * s)
    let stop ← word (256 * (s + 1))
    let row ← slice next start stop
    match _h : reach depth row.toList depths queue with
    | none => wrong
    | some (depths', queue') => drain next depths' queue'
termination_by queue => depths.count none + queue.length
decreasing_by
  have := count_none_reach _h
  simp only [List.length_cons]
  omega

/-- The depths of `n` states. -/
def search (next : Array Nat) (n : Nat) : Guarded (Array (Option Nat)) := do
  let depths ← store (Array.replicate n none) StateId.root (some 0)
  drain next depths [StateId.root]

/-! ## The states in the queue -/

section Reach

variable {depth : Nat} {row found queue : List StateId} {depths : Array (Option Nat)}

/-- The guarded steps are those of the search by layers; what these have found is at the end of the
queue, the latest last. -/
theorem reach_eq (hrow : ∀ t ∈ row, t < depths.size) :
    reach depth row depths (queue ++ found.reverse) =
      some ((row.foldl (Search.reach depth) ⟨depths, found⟩).depths,
        queue ++ (row.foldl (Search.reach depth) ⟨depths, found⟩).found.reverse) := by
  induction row generalizing depths found with
  | nil => rfl
  | cons t row ih =>
    have ht := hrow t List.mem_cons_self
    have hrow' : ∀ d, ∀ u ∈ row, u < (depths.setIfInBounds t d).size := fun d u hu => by
      rw [Array.size_setIfInBounds]
      exact hrow u (List.mem_cons_of_mem _ hu)
    rw [List.foldl_cons]
    unfold reach Search.reach
    simp only [Array.getElem?_eq_getElem ht]
    cases depths[t] with
    | none =>
      simp only
      rw [List.append_assoc, ← List.reverse_cons]
      exact ih (hrow' _)
    | some d => exact ih fun u hu => hrow u (List.mem_cons_of_mem _ hu)

end Reach

/-! ## The rows of a column -/

/-- The column holds the transitions of a table, all of which stay inside it. -/
structure HoldsRows (a : Automaton) (next : Array Nat) : Prop where
  size : next.size = 256 * a.size
  size_lt : 256 * a.size < UInt64.size
  row : ∀ s, s < a.size → next.extract (256 * s) (256 * (s + 1)) = (a.cell s).next.toArray
  closed : a.Closed

section Search

variable {a : Automaton} {next : Array Nat} {depths : Array (Option Nat)}

theorem HoldsRows.lt_size (h : HoldsRows a next) {s t : StateId} (hs : s < a.size)
    (ht : t ∈ (a.cell s).next.toArray.toList) : t < a.size := by
  obtain ⟨c, rfl⟩ := mem_next.1 ht
  exact h.closed.step_lt_size s hs c

/-- **A turn of the search**: the state in front is taken and its row is expanded. -/
theorem gives_drain_cons (h : HoldsRows a next) (hsize : depths.size = a.size) {s : StateId}
    {queue found : List StateId} {k : Nat} (hk : k + 1 < UInt64.size)
    (hs : depths[s]? = some (some k)) {r : Except Failure (Array (Option Nat))}
    {taken : List StateId}
    (hrest : Gives (drain next (Search.expand a (k + 1) ⟨depths, found⟩ s).depths
      (queue ++ (Search.expand a (k + 1) ⟨depths, found⟩ s).found.reverse)) r taken) :
    Gives (drain next depths (s :: queue ++ found.reverse)) r (s :: taken) := by
  obtain ⟨hlt, hdepth⟩ := Array.getElem?_eq_some_iff.1 hs
  have hlt' : s < a.size := hsize ▸ hlt
  have hle := Nat.mul_le_mul_left 256 (Nat.succ_le_of_lt hlt')
  have hbound := h.size_lt
  rw [List.cons_append, drain]
  refine (gives_take s).bind ?_
  refine (gives_access hlt).bind_nil ?_
  rw [hdepth]
  refine (gives_word hk).bind_nil ?_
  refine (gives_word (n := 256 * s) (by omega)).bind_nil ?_
  refine (gives_word (n := 256 * (s + 1)) (by omega)).bind_nil ?_
  refine (gives_slice (by omega) (by rw [h.size]; omega)).bind_nil ?_
  rw [h.row s hlt']
  have hreach : reach (k + 1) (a.cell s).next.toArray.toList depths (queue ++ found.reverse) = _ :=
    reach_eq fun t ht => hsize ▸ h.lt_size hlt' ht
  rw [Array.foldl_toList] at hreach
  split
  · rename_i hnone
    exact nomatch hreach.symm.trans hnone
  · rename_i depths' queue' hsome
    obtain ⟨rfl, rfl⟩ := Prod.mk.inj (Option.some.inj (hreach.symm.trans hsome))
    exact hrest

/-- The states of a layer are taken one after the other; then those that it has led to are left. -/
theorem gives_drain_layer (h : HoldsRows a next) {start : Array (Option Nat)}
    (hsize : start.size = a.size) {k : Nat} (hk : k + 1 < UInt64.size) {targets : StateId → Prop}
    {search : Search} (hx : Expanded start (k + 1) targets search) {layer : List StateId}
    (hlayer : ∀ s ∈ layer, start[s]? = some (some k)) {r : Except Failure (Array (Option Nat))}
    {taken : List StateId}
    (hrest : Gives (drain next (layer.foldl (Search.expand a (k + 1)) search).depths
      (layer.foldl (Search.expand a (k + 1)) search).found.reverse) r taken) :
    Gives (drain next search.depths (layer ++ search.found.reverse)) r (layer ++ taken) := by
  induction layer generalizing targets search with
  | nil => exact hrest
  | cons s layer ih =>
    have hs := hlayer s List.mem_cons_self
    have hknown : search.depths[s]? = some (some k) := by
      have hnot : s ∉ search.found := fun hmem => by
        have := ((hx.found s).1 hmem).2
        rw [hs] at this
        exact nomatch this
      rw [hx.depths, if_neg hnot, hs]
    refine gives_drain_cons h (hx.size_eq.trans hsize) hk hknown ?_
    exact ih (hx.expand a s) (fun u hu => hlayer u (List.mem_cons_of_mem _ hu)) hrest

/-- **The search with a queue** comes to the same as the search by layers, and takes no state twice:
those of a layer are different, and later ones had no depth before. -/
theorem gives_drain (h : HoldsRows a next) {layers k : Nat} {layer : List StateId}
    (hinv : a.SearchInv k depths layer) (hlayers : a.size ≤ k + layers) (hnodup : layer.Nodup) :
    ∃ taken,
      Gives (drain next depths layer) (.ok (a.depthsFrom layers (k + 1) depths layer)) taken ∧
      taken.Nodup ∧ ∀ s ∈ taken, s ∈ layer ∨ depths[s]? = some none := by
  have hlt : ∀ s ∈ layer, k < a.size := fun s hs => ((hinv.layer s).1 hs).lt_of_closed h.closed
  induction layers generalizing k depths layer with
  | zero =>
    cases layer with
    | nil =>
      rw [drain]
      exact ⟨[], gives_pure _, List.nodup_nil, List.forall_mem_nil _⟩
    | cons s layer => exact absurd (hlt s List.mem_cons_self) (Nat.not_lt.2 hlayers)
  | succ layers ih =>
    cases layer with
    | nil =>
      rw [drain, depthsFrom.eq_2 _ _ _ _ (Nat.succ_ne_zero _)]
      exact ⟨[], gives_pure _, List.nodup_nil, List.forall_mem_nil _⟩
    | cons s layer =>
      have hk := hlt s List.mem_cons_self
      have hbound := h.size_lt
      have hknown : ∀ u ∈ s :: layer, depths[u]? = some (some k) := fun u hu =>
        (hinv.depths u k).2 ⟨(hinv.layer u).1 hu, Nat.le_refl k⟩
      have hstart := expanded_nil depths (k + 1)
      have hx := hstart.layer a (s :: layer)
      have hstep := hinv.step h.closed
      have hfound := hstart.nodup_layer List.nodup_nil a (s :: layer)
      obtain ⟨taken, hgives, htaken, hnew⟩ := ih hstep (by omega) (List.nodup_reverse.2 hfound)
        fun u hu => ((hstep.layer u).1 hu).lt_of_closed h.closed
      have hfresh : ∀ u ∈ taken, depths[u]? = some none := fun u hu =>
        hx.eq_none ((hnew u hu).imp_left List.mem_reverse.1)
      refine ⟨s :: layer ++ taken, ?_, List.nodup_append.2 ⟨hnodup, htaken, ?_⟩, fun u hu => ?_⟩
      · rw [depthsFrom]
        have := gives_drain_layer h hinv.size_eq (by omega) hstart hknown hgives
        rwa [List.reverse_nil, List.append_nil] at this
      · rintro u hu v hv rfl
        cases (hknown u hu).symm.trans (hfresh u hv)
      · exact (List.mem_append.1 hu).imp_right (hfresh u)

theorem gives_search (h : HoldsRows a next) : ∃ taken,
    Gives (search next a.size) (.ok a.depths) taken ∧ taken.Nodup ∧ ∀ s ∈ taken, s < a.size := by
  have hroot : StateId.root < (Array.replicate a.size (none : Option Nat)).size := by
    rw [Array.size_replicate]
    exact h.closed.root_lt_size
  have hinv := SearchInv.start h.closed
  obtain ⟨taken, hgives, htaken, hmem⟩ := gives_drain h hinv (show a.size ≤ 0 + a.size by omega)
    (List.nodup_singleton _)
  refine ⟨taken, (gives_store hroot _).bind_nil hgives, htaken, fun s hs => ?_⟩
  rcases hmem s hs with hmem | hnone
  · exact List.mem_singleton.1 hmem ▸ h.closed.root_lt_size
  · refine Nat.not_le.1 fun hle => ?_
    rw [(hinv.outside s).2 hle] at hnone
    exact nomatch hnone

end Search

end PatternScan.Container.Guarded

import Mathlib.Data.List.Nodup
import PatternScan.Proofs.Trie.Insertion
import PatternScan.Trie.Links

/-!
# Breadth-first order

The layers of a linked trie are the states of equal depth. `Trie.breadthFirst` lists every state
once, by ascending depth; `foldl_breadthFirst` is the induction this gives for a fold over the
order: when a state is met, all shallower states have been.
-/

namespace PatternScan.Trie

variable {t : Trie}

/-- The states of depth `k`, each once. -/
structure IsLayer (t : Trie) (k : Nat) (layer : List StateId) : Prop where
  mem : ∀ s, s ∈ layer ↔ t.IsState s ∧ (t.pathTo s).length = k
  nodup : layer.Nodup

theorem isLayer_root (ht : t.Linked) : t.IsLayer 0 [StateId.root] where
  mem s := by
    rw [List.mem_singleton]
    constructor
    · rintro rfl
      exact ⟨isState_root ht, by simp⟩
    · rintro ⟨hs, hlen⟩
      apply pathTo_injective ht hs (isState_root ht)
      simpa using hlen
  nodup := List.nodup_singleton _

theorem length_pathTo_of_mem_children (ht : t.Linked) {s u : StateId} (h : u ∈ t.children s) :
    (t.pathTo u).length = (t.pathTo s).length + 1 := by
  obtain ⟨h1, h2, rfl⟩ := (mem_children ht).1 h
  rw [pathTo_of_root_lt ht h1 h2]
  simp

theorem nodup_children (ht : t.Linked) (s : StateId) : (t.children s).Nodup := by
  unfold children
  rw [List.Nodup, List.pairwise_map]
  refine (ht.ascending s).imp_of_mem fun {e e'} he he' hlt heq => ?_
  -- a state has one byte, so two edges to it carry the same one
  obtain ⟨-, -, -, hb⟩ := (ht.mem_edges s e.1 e.2).1 he
  obtain ⟨-, -, -, hb'⟩ := (ht.mem_edges s e'.1 e'.2).1 he'
  rw [← hb, ← hb', heq] at hlt
  exact UInt8.lt_irrefl _ hlt

theorem IsLayer.next (ht : t.Linked) {k : Nat} {layer : List StateId} (h : t.IsLayer k layer) :
    t.IsLayer (k + 1) (layer.flatMap t.children) where
  mem u := by
    rw [List.mem_flatMap]
    constructor
    · rintro ⟨s, hs, hu⟩
      obtain ⟨h1, h2, -⟩ := (mem_children ht).1 hu
      rw [length_pathTo_of_mem_children ht hu, ((h.mem s).1 hs).2]
      exact ⟨⟨Nat.le_of_lt h1, h2⟩, rfl⟩
    · rintro ⟨hu, hlen⟩
      have hr : u ≠ StateId.root := by
        rintro rfl
        simp at hlen
      obtain ⟨s, hs, hmem⟩ := exists_mem_children ht hu hr
      rw [length_pathTo_of_mem_children ht hmem] at hlen
      exact ⟨s, (h.mem s).2 ⟨hs, Nat.succ.inj hlen⟩, hmem⟩
  nodup := by
    refine List.nodup_flatMap.2 ⟨fun s _ => nodup_children ht s, h.nodup.imp fun {s v} hne => ?_⟩
    intro u hu hu'
    exact hne (((mem_children ht).1 hu).2.2.symm.trans ((mem_children ht).1 hu').2.2)

/-- Below an empty layer there is nothing. -/
theorem IsLayer.lt_of_nil (ht : t.Linked) {k : Nat} (h : t.IsLayer k []) {s : StateId}
    (hs : t.IsState s) : (t.pathTo s).length < k := by
  refine Nat.lt_of_not_le fun hle => ?_
  have hc : t.Contains ((t.pathTo s).take k) := by
    apply Contains.of_append (v := (t.pathTo s).drop k)
    rw [List.take_append_drop]
    exact (contains_iff ht).2 ⟨s, hs, rfl⟩
  obtain ⟨u, hu, hp⟩ := (contains_iff ht).1 hc
  exact List.not_mem_nil ((h.mem u).2 ⟨hu, by rw [hp, List.length_take_of_le hle]⟩)

theorem layersFrom_spec (ht : t.Linked) (n k : Nat) {layer : List StateId}
    (h : t.IsLayer k layer) :
    (∀ s, s ∈ t.layersFrom n layer ↔
        t.IsState s ∧ k ≤ (t.pathTo s).length ∧ (t.pathTo s).length < k + n) ∧
      (t.layersFrom n layer).Pairwise (fun s u => (t.pathTo s).length ≤ (t.pathTo u).length) ∧
      (t.layersFrom n layer).Nodup := by
  induction n generalizing k layer with
  | zero =>
    unfold layersFrom
    exact ⟨fun s => iff_of_false List.not_mem_nil (by omega), .nil, .nil⟩
  | succ n ih =>
    cases layer with
    | nil =>
      rw [layersFrom.eq_2 _ _ (Nat.succ_ne_zero n)]
      refine ⟨fun s => iff_of_false List.not_mem_nil fun ⟨hs, hk, _⟩ => ?_, .nil, .nil⟩
      exact Nat.not_le.2 (h.lt_of_nil ht hs) hk
    | cons u layer =>
      obtain ⟨hmem, hsorted, hnodup⟩ := ih (k + 1) (h.next ht)
      unfold layersFrom
      generalize t.layersFrom n _ = deeper at hmem hsorted hnodup
      refine ⟨fun s => ?_, List.pairwise_append.2 ⟨?_, hsorted, ?_⟩,
        List.nodup_append.2 ⟨h.nodup, hnodup, ?_⟩⟩
      · rw [List.mem_append, h.mem, hmem]
        have : ∀ p : Prop, ∀ l, (p ∧ l = k ∨ p ∧ k + 1 ≤ l ∧ l < k + 1 + n) ↔
            p ∧ k ≤ l ∧ l < k + (n + 1) := by
          intro p l
          by_cases hp : p <;> simp only [hp, true_and, false_and, or_false]
          omega
        exact this _ _
      · refine List.pairwise_of_forall_mem_list fun s hs v hv => ?_
        exact Nat.le_of_eq (((h.mem s).1 hs).2.trans ((h.mem v).1 hv).2.symm)
      · intro s hs v hv
        have h1 := ((h.mem s).1 hs).2
        have h2 := ((hmem v).1 hv).2.1
        omega
      · rintro s hs v hv rfl
        have h1 := ((h.mem s).1 hs).2
        have h2 := ((hmem s).1 hv).2.1
        omega

section BreadthFirst

variable (ht : t.Linked)

include ht

theorem mem_breadthFirst {s : StateId} : s ∈ t.breadthFirst ↔ t.IsState s := by
  unfold breadthFirst
  rw [(layersFrom_spec ht _ 0 (isLayer_root ht)).1]
  refine and_iff_left_of_imp fun hs => ⟨Nat.zero_le _, ?_⟩
  rw [Nat.zero_add]
  exact Nat.lt_trans (length_pathTo_lt ht hs) hs.2

theorem pairwise_breadthFirst :
    t.breadthFirst.Pairwise (fun s u => (t.pathTo s).length ≤ (t.pathTo u).length) :=
  (layersFrom_spec ht _ 0 (isLayer_root ht)).2.1

theorem nodup_breadthFirst : t.breadthFirst.Nodup :=
  (layersFrom_spec ht _ 0 (isLayer_root ht)).2.2

/-- **Induction along the breadth-first order**: what holds of no states, and is kept by a step that
may use that all shallower states are done and no deeper ones, holds of all states. -/
theorem foldl_breadthFirst {β : Type} {f : β → StateId → β} {P : List StateId → β → Prop} {b : β}
    (hb : P [] b)
    (step : ∀ done s b, t.IsState s → s ∉ done →
      (∀ v ∈ done, t.IsState v ∧ (t.pathTo v).length ≤ (t.pathTo s).length) →
      (∀ v, t.IsState v → (t.pathTo v).length < (t.pathTo s).length → v ∈ done) →
      P done b → P (done ++ [s]) (f b s)) :
    P t.breadthFirst (t.breadthFirst.foldl f b) := by
  have key : ∀ rest done b, done ++ rest = t.breadthFirst → P done b →
      P t.breadthFirst (rest.foldl f b) := by
    intro rest
    induction rest with
    | nil =>
      intro done b hd h
      rwa [← hd, List.append_nil]
    | cons s rest ih =>
      intro done b hd h
      rw [List.foldl_cons]
      apply ih (done ++ [s]) _ (by rw [← hd, List.append_assoc]; rfl)
      have hnodup := nodup_breadthFirst ht
      have hsorted := pairwise_breadthFirst ht
      rw [← hd] at hnodup hsorted
      have hs : t.IsState s := (mem_breadthFirst ht).1 (hd ▸ by simp)
      refine step done s b hs (fun hmem => ?_) (fun v hv => ⟨?_, ?_⟩) (fun v hv hlt => ?_) h
      · exact (List.nodup_append.1 hnodup).2.2 s hmem s (by simp) rfl
      · exact (mem_breadthFirst ht).1 (hd ▸ List.mem_append_left _ hv)
      · exact (List.pairwise_append.1 hsorted).2.2 v hv s (by simp)
      · have hv' : v ∈ done ++ s :: rest := hd ▸ (mem_breadthFirst ht).2 hv
        rcases List.mem_append.1 hv' with hv' | hv'
        · exact hv'
        · -- behind `s` nothing is shallower
          rcases List.mem_cons.1 hv' with rfl | hv'
          · exact absurd hlt (Nat.lt_irrefl _)
          · have hle := List.rel_of_pairwise_cons (List.pairwise_append.1 hsorted).2.1 hv'
            exact absurd hlt (Nat.not_lt.2 hle)
  exact key t.breadthFirst [] b rfl hb

end BreadthFirst

end PatternScan.Trie

import Mathlib.Data.List.Induction
import Mathlib.Tactic.Tauto
import PatternScan.Trie

/-!
# Arenas whose edges and parents agree

`Trie.Linked` says of an arena that its edges are exactly the parent fields read backwards, and that
parents come before their children. Then a state and the string it spells determine each other:
`follow?_eq_some_iff` says that the edges lead along a string to a state exactly if the path of the
state is that string.
-/

namespace PatternScan

namespace Node

theorem mem_insertEdge {c : UInt8} {u : StateId} {es : List (UInt8 × StateId)}
    {e : UInt8 × StateId} : e ∈ insertEdge c u es ↔ e = (c, u) ∨ e ∈ es := by
  induction es with
  | nil => simp [insertEdge]
  | cons d es ih =>
    unfold insertEdge
    split
    · exact List.mem_cons
    · rw [List.mem_cons, List.mem_cons, ih]
      tauto

/-- A new edge keeps the ascending order of the bytes. -/
theorem pairwise_insertEdge {c : UInt8} {u : StateId} {es : List (UInt8 × StateId)}
    (hes : es.Pairwise (·.1 < ·.1)) (hc : ∀ e ∈ es, e.1 ≠ c) :
    (insertEdge c u es).Pairwise (·.1 < ·.1) := by
  induction es with
  | nil => simp [insertEdge]
  | cons d es ih =>
    obtain ⟨hd, hes'⟩ := List.pairwise_cons.1 hes
    unfold insertEdge
    split
    · rename_i hlt
      refine List.pairwise_cons.2 ⟨fun e he => ?_, hes⟩
      rcases List.mem_cons.1 he with rfl | he
      · exact hlt
      · exact UInt8.lt_trans hlt (hd e he)
    · rename_i hlt
      refine List.pairwise_cons.2 ⟨fun e he => ?_, ih hes' fun e he => hc e (by simp [he])⟩
      rcases mem_insertEdge.1 he with rfl | he
      · exact UInt8.lt_of_le_of_ne (UInt8.not_lt.1 hlt) (hc d (by simp))
      · exact hd e he

/-- In ascending edges a byte has at most one target, so looking it up finds every edge. -/
theorem lookup_eq_some_iff {es : List (UInt8 × StateId)} (hes : es.Pairwise (·.1 < ·.1))
    {c : UInt8} {u : StateId} : es.lookup c = some u ↔ (c, u) ∈ es := by
  induction es with
  | nil => simp
  | cons d es ih =>
    obtain ⟨b, v⟩ := d
    obtain ⟨hd, hes'⟩ := List.pairwise_cons.1 hes
    by_cases hb : c = b
    · subst hb
      have hmem : (c, u) ∉ es := fun h => UInt8.lt_irrefl c (hd (c, u) h)
      rw [List.lookup_cons, beq_self_eq_true]
      simp [hmem, eq_comm]
    · rw [List.lookup_cons, beq_eq_false_iff_ne.2 hb]
      simp [ih hes', hb]

end Node

namespace Trie

/-- A state that a scan can be in: the root or one behind it. -/
def IsState (t : Trie) (s : StateId) : Prop :=
  StateId.root ≤ s ∧ s < t.size

/-- The edges of the arena lead from parents to children and are all there, in ascending order of
their bytes; every state behind the root has its parent before it. -/
structure Linked (t : Trie) : Prop where
  two_le_size : 2 ≤ t.size
  ascending : ∀ s, (t.node s).edges.Pairwise (·.1 < ·.1)
  mem_edges : ∀ s c u, (c, u) ∈ (t.node s).edges ↔
    StateId.root < u ∧ u < t.size ∧ (t.node u).parent = s ∧ (t.node u).byte = c
  parent : ∀ u, StateId.root < u → u < t.size →
    StateId.root ≤ (t.node u).parent ∧ (t.node u).parent < u

theorem linked_empty : empty.Linked where
  two_le_size := by simp [size, empty]
  ascending s := by
    have hs : (empty.node s).edges = [] := by
      rcases s with _ | _ | s <;> simp [node, empty]
    simp [hs]
  mem_edges s c u := by
    have hs : (empty.node s).edges = [] := by
      rcases s with _ | _ | s <;> simp [node, empty]
    rw [hs]
    refine iff_of_false List.not_mem_nil fun ⟨h1, h2, _⟩ => ?_
    exact Nat.not_lt.2 h1 h2
  parent u h1 h2 := absurd h2 (Nat.not_lt.2 h1)

variable {t : Trie}

theorem isState_root (ht : t.Linked) : t.IsState StateId.root :=
  ⟨Nat.le_refl _, ht.two_le_size⟩

theorem eq_sentinel_or_isState {s : StateId} (hs : s < t.size) :
    s = StateId.sentinel ∨ t.IsState s :=
  (Nat.eq_zero_or_pos s).imp_right fun hpos => ⟨hpos, hs⟩

theorem child?_eq_some_iff (ht : t.Linked) {s u : StateId} {c : UInt8} : t.child? s c = some u ↔
    StateId.root < u ∧ u < t.size ∧ (t.node u).parent = s ∧ (t.node u).byte = c := by
  unfold child?
  rw [Node.lookup_eq_some_iff (ht.ascending s), ht.mem_edges]

theorem mem_children (ht : t.Linked) {s u : StateId} :
    u ∈ t.children s ↔ StateId.root < u ∧ u < t.size ∧ (t.node u).parent = s := by
  simp only [children, List.mem_map, Prod.exists, exists_eq_right, ht.mem_edges]
  exact ⟨fun ⟨_, h1, h2, h3, _⟩ => ⟨h1, h2, h3⟩, fun ⟨h1, h2, h3⟩ => ⟨_, h1, h2, h3, rfl⟩⟩

/-! ## Paths -/

theorem pathOnto_eq (t : Trie) (s : StateId) (rest : Pattern) :
    t.pathOnto s rest = t.pathTo s ++ rest := by
  induction s using Nat.strongRecOn generalizing rest with
  | ind s ih =>
    unfold pathTo
    rw [pathOnto, pathOnto.eq_def t s []]
    split
    · rename_i h
      rw [ih _ h.2, ih _ h.2 [_], List.append_assoc]
      rfl
    · rfl

@[simp] theorem pathTo_root (t : Trie) : t.pathTo StateId.root = [] := by
  unfold pathTo pathOnto
  rw [dif_neg (fun h => Nat.lt_irrefl _ h.1)]

theorem pathTo_of_root_lt (ht : t.Linked) {u : StateId} (hu : StateId.root < u) (hu' : u < t.size) :
    t.pathTo u = t.pathTo (t.node u).parent ++ [(t.node u).byte] := by
  rw [pathTo, pathOnto, dif_pos ⟨hu, (ht.parent u hu hu').2⟩, pathOnto_eq]

theorem pathTo_of_child? (ht : t.Linked) {s u : StateId} {c : UInt8} (h : t.child? s c = some u) :
    t.pathTo u = t.pathTo s ++ [c] := by
  obtain ⟨h1, h2, rfl, rfl⟩ := (child?_eq_some_iff ht).1 h
  exact pathTo_of_root_lt ht h1 h2

theorem isState_of_child? (ht : t.Linked) {s u : StateId} {c : UInt8} (h : t.child? s c = some u) :
    t.IsState u := by
  obtain ⟨h1, h2, -, -⟩ := (child?_eq_some_iff ht).1 h
  exact ⟨Nat.le_of_lt h1, h2⟩

/-- The parent of a state behind the root, as the start of the edge to it. -/
theorem exists_child?_eq (ht : t.Linked) {u : StateId} (hu : t.IsState u)
    (hne : u ≠ StateId.root) : ∃ s c, t.IsState s ∧ s < u ∧ t.child? s c = some u := by
  have hlt : StateId.root < u := Nat.lt_of_le_of_ne hu.1 (Ne.symm hne)
  obtain ⟨h1, h2⟩ := ht.parent u hlt hu.2
  exact ⟨_, _, ⟨h1, Nat.lt_trans h2 hu.2⟩, h2,
    (child?_eq_some_iff ht).2 ⟨hlt, hu.2, rfl, rfl⟩⟩

theorem exists_mem_children (ht : t.Linked) {u : StateId} (hu : t.IsState u)
    (hne : u ≠ StateId.root) : ∃ s, t.IsState s ∧ u ∈ t.children s := by
  obtain ⟨s, c, hs, -, hc⟩ := exists_child?_eq ht hu hne
  obtain ⟨h1, h2, h3, -⟩ := (child?_eq_some_iff ht).1 hc
  exact ⟨s, hs, (mem_children ht).2 ⟨h1, h2, h3⟩⟩

theorem length_pathTo_lt (ht : t.Linked) {s : StateId} (hs : t.IsState s) :
    (t.pathTo s).length < s := by
  induction s using Nat.strongRecOn with
  | ind s ih =>
    by_cases hr : s = StateId.root
    · rw [hr, pathTo_root]
      exact Nat.one_pos
    · obtain ⟨p, c, hp, hlt, hc⟩ := exists_child?_eq ht hs hr
      rw [pathTo_of_child? ht hc, List.length_append]
      exact Nat.lt_of_le_of_lt (ih p hlt hp) hlt

/-! ## Following a string -/

theorem follow?_append (t : Trie) (s : StateId) (p q : Pattern) :
    t.follow? s (p ++ q) = (t.follow? s p).bind (t.follow? · q) := by
  induction p generalizing s with
  | nil => rfl
  | cons c p ih =>
    rw [List.cons_append, follow?, follow?]
    cases t.child? s c with
    | none => rfl
    | some u => exact ih u

@[simp] theorem follow?_singleton (t : Trie) (s : StateId) (c : UInt8) :
    t.follow? s [c] = t.child? s c := by
  simp [follow?]

/-- **States and strings determine each other**: a string leads from the root to a state exactly if
it is the path of that state. -/
theorem follow?_eq_some_iff (ht : t.Linked) {w : Pattern} {s : StateId} :
    t.follow? StateId.root w = some s ↔ t.IsState s ∧ t.pathTo s = w := by
  constructor
  · intro h
    induction w using List.reverseRecOn generalizing s with
    | nil =>
      obtain rfl := Option.some.inj h
      exact ⟨isState_root ht, pathTo_root t⟩
    | append_singleton w c ih =>
      rw [follow?_append, Option.bind_eq_some_iff] at h
      obtain ⟨v, hv, hc⟩ := h
      rw [follow?_singleton] at hc
      rw [pathTo_of_child? ht hc, (ih hv).2]
      exact ⟨isState_of_child? ht hc, rfl⟩
  · rintro ⟨hs, rfl⟩
    induction s using Nat.strongRecOn with
    | ind s ih =>
      by_cases hr : s = StateId.root
      · rw [hr, pathTo_root, follow?]
      · obtain ⟨p, c, hp, hlt, hc⟩ := exists_child?_eq ht hs hr
        rw [pathTo_of_child? ht hc, follow?_append, ih p hlt hp, Option.bind_some,
          follow?_singleton, hc]

theorem follow?_pathTo (ht : t.Linked) {s : StateId} (hs : t.IsState s) :
    t.follow? StateId.root (t.pathTo s) = some s :=
  (follow?_eq_some_iff ht).2 ⟨hs, rfl⟩

theorem pathTo_injective (ht : t.Linked) {s u : StateId} (hs : t.IsState s) (hu : t.IsState u)
    (h : t.pathTo s = t.pathTo u) : s = u := by
  have := follow?_pathTo ht hs
  rw [h, follow?_pathTo ht hu] at this
  exact (Option.some.inj this).symm

/-- The strings of a trie are closed under prefixes. -/
theorem follow?_isSome_of_append {w v : Pattern}
    (h : (t.follow? StateId.root (w ++ v)).isSome) : (t.follow? StateId.root w).isSome := by
  rw [follow?_append] at h
  cases hw : t.follow? StateId.root w with
  | none => rw [hw] at h; exact h
  | some s => rfl

end Trie

end PatternScan

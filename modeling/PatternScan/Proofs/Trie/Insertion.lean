import PatternScan.Proofs.Trie.Linked

/-!
# Inserting a pattern

`Trie.Contains` says that a string is spelled by some state. Threading a pattern adds exactly its
prefixes to the strings of a trie and leaves numbers, paths and marks of the states that are there
as they are (`Trie.Grows`); marking its last state changes no path.
-/

namespace PatternScan.Trie

variable {t t' : Trie}

/-- Some state spells the string. -/
def Contains (t : Trie) (w : Pattern) : Prop :=
  (t.follow? StateId.root w).isSome

theorem contains_iff (ht : t.Linked) {w : Pattern} :
    t.Contains w ↔ ∃ s, t.IsState s ∧ t.pathTo s = w := by
  simp only [Contains, Option.isSome_iff_exists, follow?_eq_some_iff ht]

theorem Contains.of_append {w v : Pattern} (h : t.Contains (w ++ v)) : t.Contains w :=
  follow?_isSome_of_append h

theorem node_of_size_le {s : StateId} (hs : t.size ≤ s) : t.node s = {} := by
  unfold node
  rw [Array.getD_eq_getD_getElem?, Array.getElem?_eq_none hs]
  rfl

/-! ## Growth -/

/-- All states of `t` are in `t'` with their parents, bytes and marks, and the new ones bear no
mark. -/
structure Grows (t t' : Trie) : Prop where
  size_le : t.size ≤ t'.size
  parent : ∀ s, s < t.size → (t'.node s).parent = (t.node s).parent
  byte : ∀ s, s < t.size → (t'.node s).byte = (t.node s).byte
  len : ∀ s, (t'.node s).len = (t.node s).len
  pattern : ∀ s, (t'.node s).pattern = (t.node s).pattern

namespace Grows

theorem refl (t : Trie) : t.Grows t :=
  ⟨Nat.le_refl _, fun _ _ => rfl, fun _ _ => rfl, fun _ => rfl, fun _ => rfl⟩

theorem trans {t'' : Trie} (h : t.Grows t') (h' : t'.Grows t'') : t.Grows t'' where
  size_le := Nat.le_trans h.size_le h'.size_le
  parent s hs := (h'.parent s (Nat.lt_of_lt_of_le hs h.size_le)).trans (h.parent s hs)
  byte s hs := (h'.byte s (Nat.lt_of_lt_of_le hs h.size_le)).trans (h.byte s hs)
  len s := (h'.len s).trans (h.len s)
  pattern s := (h'.pattern s).trans (h.pattern s)

theorem isState (h : t.Grows t') {s : StateId} (hs : t.IsState s) : t'.IsState s :=
  ⟨hs.1, Nat.lt_of_lt_of_le hs.2 h.size_le⟩

theorem pathTo (h : t.Grows t') (ht : t.Linked) (ht' : t'.Linked) {s : StateId}
    (hs : t.IsState s) : t'.pathTo s = t.pathTo s := by
  induction s using Nat.strongRecOn with
  | ind s ih =>
    by_cases hr : s = StateId.root
    · rw [hr, pathTo_root, pathTo_root]
    · have hlt : StateId.root < s := Nat.lt_of_le_of_ne hs.1 (Ne.symm hr)
      obtain ⟨hp, hps⟩ := ht.parent s hlt hs.2
      rw [pathTo_of_root_lt ht hlt hs.2, pathTo_of_root_lt ht' hlt (h.isState hs).2,
        h.parent s hs.2, h.byte s hs.2, ih _ hps ⟨hp, Nat.lt_trans hps hs.2⟩]

end Grows

/-! ## One byte -/

section ChildOrInsert

variable {s : StateId} {c : UInt8}

/-- The arena with a new child of `s` on `c` at its end. -/
private def extend (t : Trie) (s : StateId) (c : UInt8) : Trie :=
  ⟨(t.nodes.push { byte := c, parent := s }).modify s fun n =>
    { n with edges := Node.insertEdge c t.size n.edges }⟩

private theorem childOrInsert_of_none (h : t.child? s c = none) :
    t.childOrInsert s c = (t.extend s c, t.size) := by
  unfold childOrInsert
  rw [h]
  rfl

private theorem size_extend (t : Trie) (s : StateId) (c : UInt8) :
    (t.extend s c).size = t.size + 1 := by
  simp [extend, size]

private theorem node_extend (hs : s < t.size) (v : StateId) : (t.extend s c).node v =
    if v = s then { t.node s with edges := Node.insertEdge c t.size (t.node s).edges }
    else if v = t.size then { byte := c, parent := s } else t.node v := by
  simp only [extend, node, Array.getD_eq_getD_getElem?, Array.getElem?_modify, Array.getElem?_push]
  rw [show t.nodes.size = t.size from rfl]
  by_cases hv : v = s
  · subst hv
    have hlt : v < t.nodes.size := hs
    simp [Nat.ne_of_lt hs, Array.getElem?_eq_getElem hlt]
  · by_cases hv' : v = t.size
    · subst hv'
      simp [hv, Ne.symm hv]
    · simp [hv, Ne.symm hv, hv']

private theorem origin_extend (hs : s < t.size) {v : StateId} (hv : v < t.size) :
    ((t.extend s c).node v).parent = (t.node v).parent ∧
      ((t.extend s c).node v).byte = (t.node v).byte := by
  rw [node_extend hs]
  split
  · rename_i h
    rw [h]
    exact ⟨rfl, rfl⟩
  · rw [if_neg (Nat.ne_of_lt hv)]
    exact ⟨rfl, rfl⟩

private theorem mark_extend (hs : s < t.size) (v : StateId) :
    ((t.extend s c).node v).len = (t.node v).len ∧
      ((t.extend s c).node v).pattern = (t.node v).pattern := by
  rw [node_extend hs]
  split
  · rename_i h
    rw [h]
    exact ⟨rfl, rfl⟩
  · split
    · rename_i h
      rw [node_of_size_le (Nat.le_of_eq h.symm)]
      exact ⟨rfl, rfl⟩
    · exact ⟨rfl, rfl⟩

private theorem grows_extend (hs : s < t.size) : t.Grows (t.extend s c) where
  size_le := by
    rw [size_extend]
    exact Nat.le_succ _
  parent _ hv := (origin_extend hs hv).1
  byte _ hv := (origin_extend hs hv).2
  len v := (mark_extend hs v).1
  pattern v := (mark_extend hs v).2

private theorem edges_extend (hs : s < t.size) (v : StateId) : ((t.extend s c).node v).edges =
    if v = s then Node.insertEdge c t.size (t.node s).edges else (t.node v).edges := by
  rw [node_extend hs]
  split
  · rfl
  · split
    · rename_i h; rw [node_of_size_le (Nat.le_of_eq h.symm)]
    · rfl

private theorem node_extend_size (hs : s < t.size) :
    (t.extend s c).node t.size = { byte := c, parent := s } := by
  rw [node_extend hs, if_neg (Nat.ne_of_gt hs), if_pos rfl]

private theorem linked_extend (ht : t.Linked) (hs : t.IsState s) (h : t.child? s c = none) :
    (t.extend s c).Linked where
  two_le_size := by
    rw [size_extend]
    exact Nat.le_succ_of_le ht.two_le_size
  ascending v := by
    rw [edges_extend hs.2]
    split
    · refine Node.pairwise_insertEdge (ht.ascending s) fun e he hc => ?_
      have := (Node.lookup_eq_some_iff (ht.ascending s)).2 he
      rw [hc, show (t.node s).edges.lookup c = none from h] at this
      exact nomatch this
    · exact ht.ascending v
  mem_edges v d u := by
    have hg := grows_extend (c := c) hs.2
    rw [size_extend, edges_extend hs.2]
    rcases Nat.lt_trichotomy u t.size with hu | rfl | hu
    · -- an old state keeps its parent, and its edge
      have hne : (d, u) ≠ (c, t.size) := fun h => Nat.ne_of_lt hu (congrArg Prod.snd h)
      have hmem : ((d, u) ∈ if v = s then Node.insertEdge c t.size (t.node s).edges
          else (t.node v).edges) ↔ (d, u) ∈ (t.node v).edges := by
        split
        · rename_i hv
          rw [Node.mem_insertEdge, hv, or_iff_right hne]
        · rfl
      rw [hmem, ht.mem_edges, hg.parent u hu, hg.byte u hu]
      simp only [hu, Nat.lt_succ_of_lt hu]
    · have hold : ∀ v, (d, t.size) ∉ (t.node v).edges := fun v hd =>
        Nat.lt_irrefl _ ((ht.mem_edges v d _).1 hd).2.1
      have hroot : StateId.root < t.size := ht.two_le_size
      rw [node_extend_size hs.2]
      split
      · rename_i hv
        simp [Node.mem_insertEdge, hold, hroot, hv, eq_comm]
      · rename_i hv
        simp [hold, Ne.symm hv]
    · have hout : ¬ u < t.size + 1 := Nat.not_lt.2 hu
      have hold : ∀ v, (d, u) ∉ (t.node v).edges := fun v hd =>
        Nat.lt_asymm hu ((ht.mem_edges v d u).1 hd).2.1
      split
      · simp [Node.mem_insertEdge, hold, hout, Nat.ne_of_gt hu]
      · simp [hold, hout]
  parent u h1 h2 := by
    rw [size_extend] at h2
    rcases Nat.lt_succ_iff_lt_or_eq.1 h2 with hu | rfl
    · rw [(grows_extend hs.2).parent u hu]
      exact ht.parent u h1 hu
    · rw [node_extend_size hs.2]
      exact hs

end ChildOrInsert

/-- **One byte of an insertion**: the arena stays linked and grows by at most the state that is
reached, which is the child on that byte. -/
theorem childOrInsert_spec (ht : t.Linked) {s : StateId} (hs : t.IsState s) (c : UInt8) :
    (t.childOrInsert s c).1.Linked ∧ t.Grows (t.childOrInsert s c).1 ∧
      (t.childOrInsert s c).1.child? s c = some (t.childOrInsert s c).2 ∧
      ∀ v, (t.childOrInsert s c).1.IsState v → t.IsState v ∨ v = (t.childOrInsert s c).2 := by
  cases h : t.child? s c with
  | some u =>
    rw [show t.childOrInsert s c = (t, u) by rw [childOrInsert, h]]
    exact ⟨ht, .refl t, h, fun v hv => .inl hv⟩
  | none =>
    rw [childOrInsert_of_none h]
    have hlinked := linked_extend ht hs h
    refine ⟨hlinked, grows_extend hs.2, ?_, fun v hv => ?_⟩
    · rw [child?_eq_some_iff hlinked, node_extend_size hs.2, size_extend]
      exact ⟨ht.two_le_size, Nat.lt_succ_self _, rfl, rfl⟩
    · have := hv.2
      rw [size_extend] at this
      rcases Nat.lt_succ_iff_lt_or_eq.1 this with hlt | heq
      · exact .inl ⟨hv.1, hlt⟩
      · exact .inr heq

/-! ## A whole pattern -/

/-- **Threading a pattern** from a state adds the prefixes of the pattern behind the path of that
state, and ends in the state that spells the whole. -/
theorem thread_spec (p : Pattern) (ht : t.Linked) {s : StateId} (hs : t.IsState s) :
    (t.thread s p).1.Linked ∧ t.Grows (t.thread s p).1 ∧
      (t.thread s p).1.IsState (t.thread s p).2 ∧
      (t.thread s p).1.pathTo (t.thread s p).2 = t.pathTo s ++ p ∧
      ∀ w, (t.thread s p).1.Contains w ↔ t.Contains w ∨ ∃ q, q <+: p ∧ w = t.pathTo s ++ q := by
  induction p generalizing t s with
  | nil =>
    refine ⟨ht, .refl t, hs, (List.append_nil _).symm, fun w => (or_iff_left_of_imp ?_).symm⟩
    rintro ⟨q, hq, rfl⟩
    rw [List.prefix_nil.1 hq, List.append_nil]
    exact (contains_iff ht).2 ⟨s, hs, rfl⟩
  | cons c p ih =>
    obtain ⟨h1, hg1, hc1, hstate⟩ := childOrInsert_spec ht hs c
    unfold thread
    generalize t.childOrInsert s c = r at h1 hg1 hc1 hstate
    obtain ⟨t₁, u⟩ := r
    have hpath : t₁.pathTo u = t.pathTo s ++ [c] := by
      rw [pathTo_of_child? h1 hc1, hg1.pathTo ht h1 hs]
    -- the strings after the first byte
    have hcontains : ∀ w, t₁.Contains w ↔ t.Contains w ∨ w = t.pathTo s ++ [c] := by
      intro w
      rw [contains_iff h1, contains_iff ht]
      constructor
      · rintro ⟨v, hv, rfl⟩
        rcases hstate v hv with hv' | rfl
        · exact .inl ⟨v, hv', (hg1.pathTo ht h1 hv').symm⟩
        · exact .inr hpath
      · rintro (⟨v, hv, rfl⟩ | rfl)
        · exact ⟨v, hg1.isState hv, hg1.pathTo ht h1 hv⟩
        · exact ⟨u, isState_of_child? h1 hc1, hpath⟩
    obtain ⟨h2, hg2, hu2, hp2, hw2⟩ := ih h1 (isState_of_child? h1 hc1)
    refine ⟨h2, hg1.trans hg2, hu2, by rw [hp2, hpath, List.append_assoc]; rfl, fun w => ?_⟩
    rw [hw2, hcontains, hpath]
    constructor
    · rintro ((hw | rfl) | ⟨q, hq, rfl⟩)
      · exact .inl hw
      · exact .inr ⟨[c], List.prefix_append [c] p, rfl⟩
      · exact .inr ⟨c :: q, List.cons_prefix_cons.2 ⟨rfl, hq⟩, List.append_assoc ..⟩
    · rintro (hw | ⟨q, hq, rfl⟩)
      · exact .inl (.inl hw)
      · rcases q with _ | ⟨d, q⟩
        · rw [List.append_nil]
          exact .inl (.inl ((contains_iff ht).2 ⟨s, hs, rfl⟩))
        · obtain ⟨rfl, hqp⟩ := List.cons_prefix_cons.1 hq
          exact .inr ⟨q, hqp, by rw [List.append_assoc]; rfl⟩

/-! ## Marking the end -/

theorem node_mark (t : Trie) {s : StateId} (hs : s < t.size) (len index : Nat) (v : StateId) :
    (t.mark s len index).node v =
      if v = s then { t.node s with len := len, pattern := index } else t.node v := by
  have hlt : s < t.nodes.size := hs
  simp only [mark, node, Array.getD_eq_getD_getElem?, Array.getElem?_modify]
  by_cases hv : v = s
  · subst hv
    simp [Array.getElem?_eq_getElem hlt]
  · simp [hv, Ne.symm hv]

@[simp] theorem size_mark (t : Trie) (s : StateId) (len index : Nat) :
    (t.mark s len index).size = t.size := by
  simp [mark, size]

section Mark

variable {s : StateId} {len index : Nat}

theorem edges_mark (hs : s < t.size) (v : StateId) :
    ((t.mark s len index).node v).edges = (t.node v).edges := by
  rw [node_mark t hs]
  split
  · rename_i h; rw [h]
  · rfl

theorem linked_mark (ht : t.Linked) (hs : s < t.size) : (t.mark s len index).Linked := by
  have hparent : ∀ v, ((t.mark s len index).node v).parent = (t.node v).parent ∧
      ((t.mark s len index).node v).byte = (t.node v).byte := by
    intro v
    rw [node_mark t hs]
    split
    · rename_i h; rw [h]; exact ⟨rfl, rfl⟩
    · exact ⟨rfl, rfl⟩
  refine ⟨?_, fun v => ?_, fun v c u => ?_, fun u h1 h2 => ?_⟩
  · rw [size_mark]
    exact ht.two_le_size
  · rw [edges_mark hs]
    exact ht.ascending v
  · rw [edges_mark hs, size_mark, (hparent u).1, (hparent u).2]
    exact ht.mem_edges v c u
  · rw [(hparent u).1]
    exact ht.parent u h1 (by rwa [size_mark] at h2)

theorem follow?_mark (hs : s < t.size) (v : StateId) (w : Pattern) :
    (t.mark s len index).follow? v w = t.follow? v w := by
  induction w generalizing v with
  | nil => rfl
  | cons c w ih => simp only [follow?, child?, edges_mark hs, ih]

@[simp] theorem isState_mark {v : StateId} : (t.mark s len index).IsState v ↔ t.IsState v := by
  rw [IsState, IsState, size_mark]

theorem pathTo_mark (ht : t.Linked) (hs : s < t.size) {v : StateId} (hv : t.IsState v) :
    (t.mark s len index).pathTo v = t.pathTo v := by
  have h := follow?_pathTo ht hv
  rw [← follow?_mark hs] at h
  exact ((follow?_eq_some_iff (linked_mark ht hs)).1 h).2

end Mark

end PatternScan.Trie

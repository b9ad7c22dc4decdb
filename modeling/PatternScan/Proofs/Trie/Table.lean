import PatternScan.Proofs.Automaton.Trace
import PatternScan.Proofs.Trie.Links
import PatternScan.Trie.Table

/-!
# The compiled automaton of a trie

`getD_rows`: the row of a state leads on every byte to the home of its path and the byte. Hence the
compiled automaton is after any text in the home of that text (`after_compile`), and reports there
the ends of all patterns that are suffixes of the text, the longest first (`reported_compile`).
-/

namespace PatternScan.Trie

variable {t : Trie}

/-! ## Rows -/

theorem get_set (row : Row) (b c : UInt8) (u : StateId) :
    (row.set b.toNat u b.toNat_lt).get ⟨c.toNat, c.toNat_lt⟩ =
      if b = c then u else row.get ⟨c.toNat, c.toNat_lt⟩ := by
  have hget : ∀ r : Row, r.get ⟨c.toNat, c.toNat_lt⟩ = r[c.toNat]?.getD 0 := by
    intro r
    rw [Vector.getElem?_eq_getElem c.toNat_lt]
    rfl
  rw [hget, hget, Vector.getElem?_set]
  by_cases h : b = c
  · subst h
    simp
  · have hne : b.toNat ≠ c.toNat := fun h' => h (UInt8.toNat_inj.1 h')
    rw [if_neg hne, if_neg h]

theorem get_overwrite {es : List (UInt8 × StateId)} (hes : es.Pairwise (·.1 < ·.1)) (row : Row)
    (c : UInt8) : (overwrite row es).get ⟨c.toNat, c.toNat_lt⟩ =
      (es.lookup c).getD (row.get ⟨c.toNat, c.toNat_lt⟩) := by
  induction es generalizing row with
  | nil => rfl
  | cons e es ih =>
    obtain ⟨b, u⟩ := e
    obtain ⟨hb, hes'⟩ := List.pairwise_cons.1 hes
    have hstep : overwrite row ((b, u) :: es) = overwrite (row.set b.toNat u b.toNat_lt) es := rfl
    rw [hstep, ih hes', List.lookup_cons]
    by_cases h : c = b
    · subst h
      -- behind its own edge a byte has no other
      have hnone : es.lookup c = none := List.lookup_eq_none_iff.2 fun e he => by
        simpa using UInt8.ne_of_lt (hb e he)
      rw [hnone, beq_self_eq_true, get_set, if_pos rfl]
      rfl
    · rw [beq_eq_false_iff_ne.2 h, get_set, if_neg (Ne.symm h)]

@[simp] theorem get_homeRow (i : Fin 256) : homeRow.get i = StateId.root :=
  Vector.getElem_replicate i.isLt

/-- The rows of the states in `done` are complete, and the others lead home. -/
structure RowInv (t : Trie) (done : List StateId) (rows : Array Row) : Prop where
  size : rows.size = t.size
  complete : ∀ v ∈ done, ∀ c : UInt8, (rows.getD v homeRow).get ⟨c.toNat, c.toNat_lt⟩ =
    t.home (t.pathTo v ++ [c])
  fresh : ∀ v, v ∉ done → rows.getD v homeRow = homeRow

/-- The row a state starts from has on a byte without an edge the right target. -/
theorem RowInv.get_source (ht : t.Linked) {done : List StateId} {rows : Array Row}
    (h : t.RowInv done rows) {s : StateId} (hs : t.IsState s)
    (hdone : ∀ v, t.IsState v → (t.pathTo v).length < (t.pathTo s).length → v ∈ done)
    {c : UInt8} (hc : t.child? s c = none) :
    (if s = StateId.root then homeRow
      else rows.getD (t.failLinks.getD s StateId.sentinel) homeRow).get ⟨c.toNat, c.toNat_lt⟩ =
      t.home (t.pathTo s ++ [c]) := by
  split
  · rename_i hr
    rw [hr] at hc ⊢
    rw [get_homeRow, pathTo_root, List.nil_append, home_singleton_of_none ht hc]
  · rename_i hr
    have hmem := hdone _ (isState_fallback ht hr) (length_pathTo_fallback_lt ht hs hr)
    rw [getD_failLinks ht hs, h.complete _ hmem, home_append_of_fallback ht hs hr hc]

theorem RowInv.step (ht : t.Linked) {done : List StateId} {rows : Array Row} {s : StateId}
    (hs : t.IsState s)
    (hnot : s ∉ done)
    (hdone : ∀ v, t.IsState v → (t.pathTo v).length < (t.pathTo s).length → v ∈ done)
    (h : t.RowInv done rows) : t.RowInv (done ++ [s]) (t.fillRow t.failLinks rows s) := by
  have hnew : ∀ v, v ≠ s → (t.fillRow t.failLinks rows s).getD v homeRow = rows.getD v homeRow :=
    fun v hv => by
      unfold fillRow
      rw [getD_setIfInBounds, if_neg (fun h' => hv h'.1.symm)]
  refine ⟨?_, fun v hv c => ?_, fun v hv => ?_⟩
  · unfold fillRow
    rw [Array.size_setIfInBounds, h.size]
  · rcases List.mem_append.1 hv with hv | hv
    · rw [hnew v (fun heq => hnot (heq ▸ hv))]
      exact h.complete v hv c
    · obtain rfl := List.mem_singleton.1 hv
      unfold fillRow
      rw [getD_setIfInBounds, h.size, if_pos ⟨rfl, hs.2⟩, get_overwrite (ht.ascending v)]
      cases hc : t.child? v c with
      | some u =>
        rw [show (t.node v).edges.lookup c = some u from hc, Option.getD_some,
          home_append_of_child? ht hs hc]
      | none =>
        rw [show (t.node v).edges.lookup c = none from hc, Option.getD_none]
        exact h.get_source ht hs hdone hc
  · rw [List.mem_append, List.mem_singleton, not_or] at hv
    rw [hnew v hv.2, h.fresh v hv.1]

theorem rowInv_rows (ht : t.Linked) : t.RowInv t.breadthFirst (t.rows t.failLinks) := by
  refine foldl_breadthFirst ht (P := t.RowInv) ⟨Array.size_replicate, ?_, ?_⟩
    fun done s rows hs hnot _ hdone h => h.step ht hs hnot hdone
  · exact fun v hv => absurd hv List.not_mem_nil
  · exact fun v _ => getD_replicate ..

/-- **The row of a state** leads to the home of its path and the byte. -/
theorem getD_rows (ht : t.Linked) {s : StateId} (hs : t.IsState s) (c : UInt8) :
    ((t.rows t.failLinks).getD s homeRow).get ⟨c.toNat, c.toNat_lt⟩ =
      t.home (t.pathTo s ++ [c]) :=
  (rowInv_rows ht).complete s ((mem_breadthFirst ht).2 hs) c

theorem getD_rows_sentinel (ht : t.Linked) :
    (t.rows t.failLinks).getD StateId.sentinel homeRow = homeRow :=
  (rowInv_rows ht).fresh _ fun h => Nat.not_lt.2 ((mem_breadthFirst ht).1 h).1 Nat.one_pos

/-! ## Cells -/

@[simp] theorem size_compile (t : Trie) : t.compile.size = t.size := by
  simp [compile, Automaton.size, size]

theorem cell_compile {s : StateId} (hs : s < t.size) : t.compile.cell s =
    { next := (t.rows t.failLinks).getD s homeRow
      len := (t.node s).len
      link := (t.dictLinks t.failLinks).getD s StateId.sentinel
      pattern := (t.node s).pattern } := by
  have hlt : s < t.nodes.size := hs
  have hnode : t.node s = t.nodes[s] := by
    unfold node
    rw [Array.getD_eq_getD_getElem?, Array.getElem?_eq_getElem hlt, Option.getD_some]
  rw [Automaton.cell, dif_pos (show s < t.compile.cells.size by simpa [compile] using hlt), hnode]
  simp [compile]

theorem step_compile (ht : t.Linked) {s : StateId} (hs : t.IsState s) (c : UInt8) :
    (t.compile.cell s).step c = t.home (t.pathTo s ++ [c]) := by
  rw [cell_compile hs.2, Cell.step, getD_rows ht hs]

/-- **After any text** the automaton is in the state of its longest suffix in the trie. -/
theorem after_compile (ht : t.Linked) (w : List UInt8) : t.compile.after w = t.home w := by
  induction w using List.reverseRecOn with
  | nil => rfl
  | append_singleton w c ih =>
    rw [Automaton.after_append_singleton, ih, step_compile ht (isState_home ht w),
      ← home_append ht]

/-! ## Reports -/

/-- The accepting states that spell a non-empty suffix of a string, the longest first. -/
def ends (t : Trie) : Pattern → List StateId
  | [] => []
  | c :: w => ((t.follow? StateId.root (c :: w)).filter fun s => (t.node s).accepting).toList ++
      t.ends w

theorem ends_cons_of_not_contains {c : UInt8} {w : Pattern} (h : ¬ t.Contains (c :: w)) :
    t.ends (c :: w) = t.ends w := by
  rw [ends, Option.not_isSome_iff_eq_none.1 h]
  rfl

/-- The longest suffix in the trie has the same accepting suffixes. -/
theorem ends_pathTo_home (ht : t.Linked) (w : Pattern) :
    t.ends (t.pathTo (t.home w)) = t.ends w := by
  induction w with
  | nil => simp [home]
  | cons c w ih =>
    by_cases h : t.Contains (c :: w)
    · obtain ⟨s, hs⟩ := Option.isSome_iff_exists.1 h
      rw [home_of_follow? hs, ((follow?_eq_some_iff ht).1 hs).2]
    · rw [home_cons_of_not_contains h, ends_cons_of_not_contains h, ih]

theorem length_ends_le (t : Trie) (w : Pattern) : (t.ends w).length ≤ w.length := by
  induction w with
  | nil => simp [ends]
  | cons c w ih =>
    unfold ends
    rw [List.length_append, List.length_cons]
    have : (Option.filter (fun s => (t.node s).accepting)
        (t.follow? StateId.root (c :: w))).toList.length ≤ 1 := by
      cases Option.filter _ _ <;> simp
    omega

theorem mem_ends (ht : t.Linked) {v : StateId} {w : Pattern} : v ∈ t.ends w ↔
    t.IsState v ∧ t.pathTo v ≠ [] ∧ t.pathTo v <:+ w ∧ 0 < (t.node v).len := by
  induction w with
  | nil =>
    exact iff_of_false List.not_mem_nil fun ⟨_, hne, hsuffix, _⟩ => hne (List.suffix_nil.1 hsuffix)
  | cons c w ih =>
    rw [ends, List.mem_append, Option.mem_toList, Option.filter_eq_some_iff,
      follow?_eq_some_iff ht, ih, List.suffix_cons_iff, Node.accepting, decide_eq_true_iff]
    constructor
    · rintro (⟨⟨hv, hpath⟩, hlen⟩ | ⟨hv, hne, hsuffix, hlen⟩)
      · exact ⟨hv, hpath ▸ List.cons_ne_nil c w, .inl hpath, hlen⟩
      · exact ⟨hv, hne, .inr hsuffix, hlen⟩
    · rintro ⟨hv, hne, hpath | hsuffix, hlen⟩
      · exact .inl ⟨⟨hv, hpath⟩, hlen⟩
      · exact .inr ⟨hv, hne, hsuffix, hlen⟩

/-- The ends of the suffixes come by decreasing length. -/
theorem pairwise_ends (ht : t.Linked) (w : Pattern) :
    (t.ends w).Pairwise fun u v => (t.pathTo v).length < (t.pathTo u).length := by
  induction w with
  | nil => exact .nil
  | cons c w ih =>
    unfold ends
    refine List.pairwise_append.2 ⟨?_, ih, fun u hu v hv => ?_⟩
    · cases Option.filter _ _ with
      | none => exact .nil
      | some u => exact List.pairwise_singleton _ _
    · obtain ⟨hfollow, -⟩ := Option.filter_eq_some_iff.1 (Option.mem_toList.1 hu)
      obtain ⟨-, -, hsuffix, -⟩ := (mem_ends ht).1 hv
      rw [((follow?_eq_some_iff ht).1 hfollow).2]
      exact Nat.lt_succ_of_le hsuffix.length_le

theorem ends_pathTo (ht : t.Linked) {s : StateId} (hs : t.IsState s) (hr : s ≠ StateId.root) :
    t.ends (t.pathTo s) =
      (if (t.node s).accepting then [s] else []) ++ t.ends (t.pathTo s).tail := by
  cases hp : t.pathTo s with
  | nil => exact absurd hp (pathTo_ne_nil ht hs hr)
  | cons c w =>
    rw [ends, (follow?_eq_some_iff ht).2 ⟨hs, hp⟩, List.tail_cons, Option.filter_some]
    split <;> rfl

theorem ends_fallback (ht : t.Linked) {s : StateId} (hr : s ≠ StateId.root) :
    t.ends (t.pathTo (t.fallback s)) = t.ends (t.pathTo s).tail := by
  unfold fallback
  rw [if_neg hr, ends_pathTo_home ht]

/-- **The chain of a state** consists of the ends of the proper suffixes of its path. -/
theorem chain_compile (ht : t.Linked) (hroot : (t.node StateId.root).accepting = false)
    {s : StateId} (hs : t.IsState s) :
    t.compile.Chain (t.compile.cell s).link (t.ends (t.pathTo s).tail) := by
  rw [cell_compile hs.2]
  by_cases hr : s = StateId.root
  · rw [hr, pathTo_root, getD_dictLinks_root ht]
    exact .nil
  · -- by the depth of the state: the fallback is shallower
    induction hd : (t.pathTo s).length using Nat.strongRecOn generalizing s with
    | ind d ih =>
      subst hd
      have hf := isState_fallback ht hr
      have hlt := length_pathTo_fallback_lt ht hs hr
      simp only at ih ⊢
      rw [getD_dictLinks ht hs hr, ← ends_fallback ht hr]
      by_cases hfr : t.fallback s = StateId.root
      · rw [hfr, hroot, pathTo_root, getD_dictLinks_root ht]
        exact .nil
      · have hchain := ih _ hlt hf hfr rfl
        rw [ends_pathTo ht hf hfr]
        split
        · refine .cons (Nat.ne_of_gt hf.1) ?_ ?_
          · rw [size_compile]
            exact hf.2
          · rw [cell_compile hf.2]
            exact hchain
        · exact hchain

/-- **What is reported after a text** are the ends of its suffixes. -/
theorem reported_compile (ht : t.Linked) (hroot : (t.node StateId.root).accepting = false)
    (w : Pattern) : t.compile.reported (t.compile.after w) = t.ends w := by
  have hs := isState_home ht w
  rw [after_compile ht, ← ends_pathTo_home ht, Automaton.reported]
  generalize t.home w = s at hs
  have hbound : (t.ends (t.pathTo s).tail).length ≤ t.compile.size := by
    rw [size_compile]
    apply Nat.le_trans (length_ends_le t _)
    rw [List.length_tail]
    exact Nat.le_trans (Nat.sub_le _ _)
      (Nat.le_of_lt (Nat.lt_trans (length_pathTo_lt ht hs) hs.2))
  rw [(chain_compile ht hroot hs).chain_eq hbound, cell_compile hs.2]
  by_cases hr : s = StateId.root
  · subst hr
    rw [pathTo_root]
    have hlen : (t.node StateId.root).len = 0 := by simpa [Node.accepting] using hroot
    simp [hlen, ends]
  · rw [ends_pathTo ht hs hr]
    congr 1
    by_cases hlen : (t.node s).len = 0
    · simp [Node.accepting, hlen]
    · simp [Node.accepting, hlen, Nat.pos_of_ne_zero hlen]

end PatternScan.Trie

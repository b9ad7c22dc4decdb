import PatternScan.Proofs.Trie.Order
import PatternScan.Proofs.Trie.Suffix

/-!
# The links of a trie

`getD_failLinks`: the computed failure link of a state is its fallback, the state of the longest
proper suffix. `getD_dictLinks`: the dictionary link of a state is its failure target if a pattern
ends there, and otherwise the dictionary link of that target.
-/

namespace PatternScan.Trie

variable {t : Trie}

/-! ## Failure links -/

/-- The failure links are final for the states up to depth `m`. -/
def LinkedUpTo (t : Trie) (m : Nat) (fail : Array StateId) : Prop :=
  ∀ v, t.IsState v → (t.pathTo v).length ≤ m → fail.getD v StateId.sentinel = t.fallback v

@[simp] theorem chase_sentinel (t : Trie) (fail : Array StateId) (c : UInt8) (steps : Nat) :
    t.chase fail c steps StateId.sentinel = StateId.root := by
  cases steps <;> simp [chase]

/-- **The climb** along final failure links ends in the home of the string and the byte. -/
theorem chase_eq (ht : t.Linked) {fail : Array StateId} {m : Nat} (hfail : t.LinkedUpTo m fail)
    (c : UInt8) (steps : Nat) {v : StateId} (hv : t.IsState v) (hm : (t.pathTo v).length ≤ m)
    (hsteps : (t.pathTo v).length < steps) :
    t.chase fail c steps v = t.home (t.pathTo v ++ [c]) := by
  induction steps generalizing v with
  | zero => exact absurd hsteps (Nat.not_lt_zero _)
  | succ steps ih =>
    have hne : v ≠ StateId.sentinel := Nat.ne_of_gt hv.1
    unfold chase
    rw [if_neg hne]
    cases hc : t.child? v c with
    | some u => exact (home_append_of_child? ht hv hc).symm
    | none =>
      simp only
      rw [hfail v hv hm]
      by_cases hr : v = StateId.root
      · -- behind the root the climb meets the sentinel, or has no step left
        subst hr
        rw [fallback_root, pathTo_root, List.nil_append, home_singleton_of_none ht hc,
          chase_sentinel]
      · have hlt := length_pathTo_fallback_lt ht hv hr
        rw [ih (isState_fallback ht hr) (by omega) (by omega),
          home_append_of_fallback ht hv hr hc]

theorem fallback_of_child? (ht : t.Linked) {s u : StateId} {c : UInt8} (hs : t.IsState s)
    (hc : t.child? s c = some u) : t.fallback u =
      if s = StateId.root then StateId.root else t.home (t.pathTo (t.fallback s) ++ [c]) := by
  have hu : u ≠ StateId.root := Nat.ne_of_gt ((child?_eq_some_iff ht).1 hc).1
  rw [fallback, if_neg hu, pathTo_of_child? ht hc]
  split
  · rename_i hr
    rw [hr, pathTo_root]
    rfl
  · rename_i hr
    unfold fallback
    rw [if_neg hr, ← home_append ht, List.tail_append_of_ne_nil (pathTo_ne_nil ht hs hr)]

theorem getD_setIfInBounds {α : Type} (xs : Array α) (i j : Nat) (x d : α) :
    (xs.setIfInBounds i x).getD j d = if i = j ∧ i < xs.size then x else xs.getD j d := by
  rw [Array.getD_eq_getD_getElem?, Array.getD_eq_getD_getElem?, Array.getElem?_setIfInBounds]
  by_cases hij : i = j
  · subst hij
    by_cases hi : i < xs.size <;> simp [hi]
  · simp [hij]

theorem getD_replicate {α : Type} (n : Nat) (x : α) (i : Nat) :
    (Array.replicate n x).getD i x = x := by
  rw [Array.getD_eq_getD_getElem?, Array.getElem?_replicate]
  split <;> rfl

/-- Setting a link to the fallback keeps the links that are final. -/
theorem LinkedUpTo.set {fail : Array StateId} {m : Nat} (h : t.LinkedUpTo m fail) (u : StateId) :
    t.LinkedUpTo m (fail.setIfInBounds u (t.fallback u)) := by
  intro v hv hm
  rw [getD_setIfInBounds]
  split
  · rename_i heq
    rw [heq.1]
  · exact h v hv hm

section LinkChildren

variable {fail : Array StateId} {s : StateId}

/-- The climb for an edge of a state whose own failure link is final. -/
theorem chase_fail_eq (ht : t.Linked) (hs : t.IsState s)
    (hfail : t.LinkedUpTo (t.pathTo s).length fail) {u : StateId} {c : UInt8}
    (hc : t.child? s c = some u) :
    t.chase fail c t.size (fail.getD s StateId.sentinel) = t.fallback u := by
  rw [hfail s hs (Nat.le_refl _), fallback_of_child? ht hs hc]
  split
  · rename_i hr
    rw [hr, fallback_root, chase_sentinel]
  · rename_i hr
    have hlt := length_pathTo_fallback_lt ht hs hr
    apply chase_eq ht hfail c _ (isState_fallback ht hr) (Nat.le_of_lt hlt)
    exact Nat.lt_trans hlt (Nat.lt_trans (length_pathTo_lt ht hs) hs.2)

/-- Linking the children of a state sets their failure links and changes no other. -/
theorem getD_linkChildren (ht : t.Linked) (hs : t.IsState s) (hsize : fail.size = t.size)
    (hfail : t.LinkedUpTo (t.pathTo s).length fail) (v : StateId) :
    (t.linkChildren fail s).size = t.size ∧ (t.linkChildren fail s).getD v StateId.sentinel =
      if v ∈ t.children s then t.fallback v else fail.getD v StateId.sentinel := by
  unfold linkChildren children
  have hsub : ∀ e ∈ (t.node s).edges, t.child? s e.1 = some e.2 := fun e he =>
    (Node.lookup_eq_some_iff (ht.ascending s)).2 he
  generalize (t.node s).edges = es at hsub
  induction es generalizing fail with
  | nil => exact ⟨hsize, by simp⟩
  | cons e es ih =>
    obtain ⟨c, u⟩ := e
    have hc : t.child? s c = some u := hsub (c, u) (by simp)
    obtain ⟨-, hu, -, -⟩ := (child?_eq_some_iff ht).1 hc
    simp only [List.foldl_cons, chase_fail_eq ht hs hfail hc]
    have hset : ∀ v, (fail.setIfInBounds u (t.fallback u)).getD v StateId.sentinel =
        if u = v then t.fallback v else fail.getD v StateId.sentinel := by
      intro v
      rw [getD_setIfInBounds, hsize]
      by_cases h : u = v
      · subst h
        rw [if_pos ⟨rfl, hu⟩, if_pos rfl]
      · rw [if_neg (fun h' => h h'.1), if_neg h]
    obtain ⟨h1, h2⟩ := @ih (fail.setIfInBounds u (t.fallback u))
      (by rw [Array.size_setIfInBounds, hsize])
      (hfail.set u)
      (fun e he => hsub e (by simp [he]))
    refine ⟨h1, ?_⟩
    rw [h2, hset]
    simp only [List.map_cons, List.mem_cons]
    by_cases hmem : v ∈ es.map (·.2)
    · rw [if_pos hmem, if_pos (.inr hmem)]
    · rw [if_neg hmem]
      by_cases huv : u = v
      · rw [if_pos huv, if_pos (.inl huv.symm)]
      · rw [if_neg huv, if_neg (fun h => h.elim (fun h => huv h.symm) hmem)]

end LinkChildren

/-- The failure links of the root and of the children of the states in `done` are final. -/
structure FailInv (t : Trie) (done : List StateId) (fail : Array StateId) : Prop where
  size : fail.size = t.size
  root : fail.getD StateId.root StateId.sentinel = t.fallback StateId.root
  children : ∀ p ∈ done, ∀ v ∈ t.children p, fail.getD v StateId.sentinel = t.fallback v

theorem failInv_start : t.FailInv [] (Array.replicate t.size StateId.sentinel) where
  size := Array.size_replicate
  root := by rw [fallback_root, getD_replicate]
  children _ hp := absurd hp List.not_mem_nil

/-- When a state is met, the parents of all states up to its depth are done. -/
theorem FailInv.linkedUpTo (ht : t.Linked) {done : List StateId} {s : StateId}
    {fail : Array StateId} (h : t.FailInv done fail)
    (hdone : ∀ v, t.IsState v → (t.pathTo v).length < (t.pathTo s).length → v ∈ done) :
    t.LinkedUpTo (t.pathTo s).length fail := by
  intro v hv hlen
  by_cases hr : v = StateId.root
  · rw [hr]
    exact h.root
  · obtain ⟨p, hp, hmem⟩ := exists_mem_children ht hv hr
    rw [length_pathTo_of_mem_children ht hmem] at hlen
    exact h.children p (hdone p hp hlen) v hmem

theorem FailInv.step (ht : t.Linked) {done : List StateId} {s : StateId} {fail : Array StateId}
    (hs : t.IsState s)
    (hdone : ∀ v, t.IsState v → (t.pathTo v).length < (t.pathTo s).length → v ∈ done)
    (h : t.FailInv done fail) : t.FailInv (done ++ [s]) (t.linkChildren fail s) := by
  have hlink := getD_linkChildren ht hs h.size (h.linkedUpTo ht hdone)
  refine ⟨(hlink s).1, ?_, fun p hp v hv => ?_⟩
  · rw [(hlink _).2]
    split
    · rfl
    · exact h.root
  · rw [(hlink v).2]
    split
    · rfl
    · rename_i hnew
      rcases List.mem_append.1 hp with hp | hp
      · exact h.children p hp v hv
      · obtain rfl := List.mem_singleton.1 hp
        exact absurd hv hnew

theorem failInv_failLinks (ht : t.Linked) : t.FailInv t.breadthFirst t.failLinks :=
  foldl_breadthFirst ht (P := t.FailInv) failInv_start
    fun _ _ _ hs _ _ hdone h => h.step ht hs hdone

/-- **The failure link of a state** is the state of the longest proper suffix of its path; the root
has none. -/
theorem getD_failLinks (ht : t.Linked) {s : StateId} (hs : t.IsState s) :
    t.failLinks.getD s StateId.sentinel = t.fallback s := by
  have h := failInv_failLinks ht
  by_cases hr : s = StateId.root
  · rw [hr]
    exact h.root
  · obtain ⟨p, hp, hmem⟩ := exists_mem_children ht hs hr
    exact h.children p ((mem_breadthFirst ht).2 hp) s hmem

theorem linkedUpTo_failLinks (ht : t.Linked) (m : Nat) : t.LinkedUpTo m t.failLinks :=
  fun _ hv _ => getD_failLinks ht hv

theorem sentinel_not_mem_children (ht : t.Linked) (s : StateId) :
    StateId.sentinel ∉ t.children s := fun h =>
  Nat.not_lt_zero _ ((mem_children ht).1 h).1

/-- The sentinel is no child, so it is never linked. -/
theorem getD_failLinks_sentinel (ht : t.Linked) :
    t.failLinks.getD StateId.sentinel StateId.sentinel = StateId.sentinel := by
  refine (foldl_breadthFirst ht (f := t.linkChildren) (P := fun done fail =>
    t.FailInv done fail ∧ fail.getD StateId.sentinel StateId.sentinel = StateId.sentinel)
    ⟨failInv_start, getD_replicate ..⟩ ?_).2
  rintro done s fail hs - - hdone ⟨hinv, hsentinel⟩
  have hlink := getD_linkChildren ht hs hinv.size (hinv.linkedUpTo ht hdone)
  refine ⟨hinv.step ht hs hdone, ?_⟩
  rw [(hlink _).2, if_neg (sentinel_not_mem_children ht s), hsentinel]

/-! ## Dictionary links -/

/-- The dictionary links of the states in `done` are set, and the others are not. -/
structure DictInv (t : Trie) (done : List StateId) (link : Array StateId) : Prop where
  size : link.size = t.size
  linked : ∀ v ∈ done, v ≠ StateId.root → link.getD v StateId.sentinel =
    if (t.node (t.fallback v)).accepting then t.fallback v
    else link.getD (t.fallback v) StateId.sentinel
  unlinked : ∀ v, v ∉ done ∨ v = StateId.root → link.getD v StateId.sentinel = StateId.sentinel

theorem DictInv.step (ht : t.Linked) {done : List StateId} {s : StateId} {link : Array StateId}
    (hs : t.IsState s)
    (hdone : ∀ v ∈ done, t.IsState v ∧ (t.pathTo v).length ≤ (t.pathTo s).length)
    (h : t.DictInv done link) :
    t.DictInv (done ++ [s]) (t.linkDictionary t.failLinks link s) := by
  have hnew : ∀ v, (t.linkDictionary t.failLinks link s).getD v StateId.sentinel =
      if v = s then (if (t.node (t.fallback s)).accepting then t.fallback s
        else link.getD (t.fallback s) StateId.sentinel)
      else link.getD v StateId.sentinel := by
    intro v
    unfold linkDictionary
    rw [getD_failLinks ht hs, getD_setIfInBounds, h.size]
    by_cases hv : v = s
    · subst hv
      rw [if_pos ⟨rfl, hs.2⟩, if_pos rfl]
    · rw [if_neg (fun h' => hv h'.1.symm), if_neg hv]
  -- the links that are read are those of shallower states, so `s` is not among them
  have hback : ∀ v, t.IsState v → (t.pathTo v).length ≤ (t.pathTo s).length →
      v ≠ StateId.root → t.fallback v ≠ s := by
    intro v hv hle hr heq
    have := length_pathTo_fallback_lt ht hv hr
    rw [heq] at this
    exact Nat.not_lt.2 hle this
  refine ⟨?_, fun v hv hr => ?_, fun v hv => ?_⟩
  · unfold linkDictionary
    rw [Array.size_setIfInBounds, h.size]
  · rw [hnew, hnew]
    rcases List.mem_append.1 hv with hv | hv
    · rw [if_neg (hback v (hdone v hv).1 (hdone v hv).2 hr)]
      split
      · rename_i heq
        rw [heq]
      · exact h.linked v hv hr
    · obtain rfl := List.mem_singleton.1 hv
      rw [if_pos rfl, if_neg (hback v hs (Nat.le_refl _) hr)]
  · rw [hnew]
    rcases hv with hv | rfl
    · rw [List.mem_append, List.mem_singleton, not_or] at hv
      rw [if_neg hv.2]
      exact h.unlinked v (.inl hv.1)
    · split
      · rename_i heq
        have hnil : link.getD StateId.sentinel StateId.sentinel = StateId.sentinel :=
          h.unlinked _ (.inl fun hmem => Nat.not_lt.2 (hdone _ hmem).1.1 Nat.one_pos)
        rw [← heq, fallback_root, hnil]
        split <;> rfl
      · exact h.unlinked _ (.inr rfl)

theorem dictInv_dictLinks (ht : t.Linked) : t.DictInv t.breadthFirst (t.dictLinks t.failLinks) := by
  refine foldl_breadthFirst ht (P := t.DictInv) ⟨Array.size_replicate, ?_, ?_⟩
    fun done s link hs _ hdone _ h => h.step ht hs hdone
  · exact fun v hv => absurd hv List.not_mem_nil
  · exact fun v _ => getD_replicate ..

theorem getD_dictLinks_sentinel (ht : t.Linked) :
    (t.dictLinks t.failLinks).getD StateId.sentinel StateId.sentinel = StateId.sentinel :=
  (dictInv_dictLinks ht).unlinked _ (.inl fun h =>
    Nat.not_lt_zero _ ((mem_breadthFirst ht).1 h).1)

theorem getD_dictLinks_root (ht : t.Linked) :
    (t.dictLinks t.failLinks).getD StateId.root StateId.sentinel = StateId.sentinel :=
  (dictInv_dictLinks ht).unlinked _ (.inr rfl)

/-- **The dictionary link of a state** is its fallback if a pattern ends there, and else that of its
fallback. -/
theorem getD_dictLinks (ht : t.Linked) {s : StateId} (hs : t.IsState s) (hr : s ≠ StateId.root) :
    (t.dictLinks t.failLinks).getD s StateId.sentinel =
      if (t.node (t.fallback s)).accepting then t.fallback s
      else (t.dictLinks t.failLinks).getD (t.fallback s) StateId.sentinel :=
  (dictInv_dictLinks ht).linked s ((mem_breadthFirst ht).2 hs) hr

end PatternScan.Trie

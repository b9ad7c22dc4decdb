import Mathlib.Order.Nat
import PatternScan.Proofs.Trie.Numbering
import PatternScan.Proofs.Trie.Table

/-!
# The prefix tree of the patterns

`Trie.IsPrefixTree` says which arena the patterns determine: one state for each of their prefixes,
by the order in which these first occur, with edges, parents and marks that agree with the strings.
`isPrefixTree_addAll` proves it of every builder and draws the counts of states, of accepting states
and the longest length from it.
-/

namespace PatternScan

theorem foldl_max_le_iff {xs : List Nat} {m n : Nat} :
    xs.foldl max m ≤ n ↔ m ≤ n ∧ ∀ x ∈ xs, x ≤ n := by
  induction xs generalizing m with
  | nil => simp
  | cons x xs ih => rw [List.foldl_cons, ih, Nat.max_le, and_assoc, List.forall_mem_cons]

namespace Automaton

/-- The lengths of the patterns that end at the states, by the numbers of the states. -/
def lens (a : Automaton) : List Nat :=
  a.cells.toList.map (·.len)

theorem acceptingCount_eq (a : Automaton) : a.acceptingCount = a.lens.countP (0 < ·) := by
  have key : ∀ (cells : List Cell) (n : Nat),
      cells.foldl (fun n cell => if 0 < cell.len then n + 1 else n) n =
        n + (cells.map (·.len)).countP (0 < ·) := by
    intro cells
    induction cells with
    | nil => exact fun n => rfl
    | cons cell cells ih =>
      intro n
      rw [List.foldl_cons, ih, List.map_cons, List.countP_cons]
      by_cases h : 0 < cell.len
      · simp only [h, if_true, decide_true]
        omega
      · simp [h]
  rw [acceptingCount, ← Array.foldl_toList, key, Nat.zero_add, lens]

theorem maxPatternLen_le_iff {a : Automaton} {n : Nat} :
    a.maxPatternLen ≤ n ↔ ∀ len ∈ a.lens, len ≤ n := by
  have hmax : a.maxPatternLen = a.lens.foldl max 0 := by
    rw [maxPatternLen, ← Array.foldl_toList, lens, List.foldl_map]
  rw [hmax, foldl_max_le_iff]
  simp

end Automaton

namespace Trie

open Builder (numbered firstPrefixes mem_firstPrefixes lastIndex?_eq_some_iff)

variable {t : Trie} {ps : List Pattern} {s : StateId}

/-! ## Reading a string back -/

/-- The climb from a state along the parents, with no bound and no comparison of numbers, ends and
has collected `w`; all states it meets are in the arena. -/
inductive ReadsBack (t : Trie) : StateId → Pattern → Prop
  | top {s : StateId} (h : s ≤ StateId.root) : ReadsBack t s []
  | up {s : StateId} {w : Pattern} (h : StateId.root < s) (hs : s < t.size)
      (rest : ReadsBack t (t.node s).parent w) : ReadsBack t s (w ++ [(t.node s).byte])

/-- **Reading a string back ends** with the path of the state. -/
theorem readsBack_pathTo (ht : t.Linked) (hs : t.IsState s) : t.ReadsBack s (t.pathTo s) := by
  induction s using Nat.strongRecOn with
  | ind s ih =>
    by_cases hr : s = StateId.root
    · rw [hr, pathTo_root]
      exact .top (Nat.le_refl _)
    · have hlt : StateId.root < s := Nat.lt_of_le_of_ne hs.1 (Ne.symm hr)
      obtain ⟨hp, hps⟩ := ht.parent s hlt hs.2
      rw [pathTo_of_root_lt ht hlt hs.2]
      exact .up hlt hs.2 (ih _ hps ⟨hp, Nat.lt_trans hps hs.2⟩)

/-! ## The arena -/

/-- `t` is the prefix tree of the patterns `ps`. -/
structure IsPrefixTree (t : Trie) (ps : List Pattern) : Prop where
  size : t.size = 2 + (firstPrefixes ps).length
  /-- The states behind the root spell the prefixes in the order of their first occurrence. -/
  spells : ∀ i (h : i < (firstPrefixes ps).length),
    t.pathTo (2 + i) = (firstPrefixes ps)[i] ∧ t.ReadsBack (2 + i) (firstPrefixes ps)[i]
  /-- The edges lead along a prefix to its state, and along no other string. -/
  follow : ∀ w s, t.follow? StateId.root w = some s ↔
    w = [] ∧ s = StateId.root ∨ ∃ i, (firstPrefixes ps)[i]? = some w ∧ s = 2 + i
  child : ∀ s c u, t.child? s c = some u → s < u
  /-- A whole pattern is marked with its length. -/
  len : ∀ i (h : i < (firstPrefixes ps).length), (t.node (2 + i)).len =
    if (firstPrefixes ps)[i] ∈ ps then (firstPrefixes ps)[i].length else 0
  /-- It is marked with the last index it received. -/
  pattern : ∀ i (h : i < (firstPrefixes ps).length), (firstPrefixes ps)[i] ∈ ps →
    (numbered ps)[(t.node (2 + i)).pattern]? = some (firstPrefixes ps)[i] ∧
      ∀ j, (t.node (2 + i)).pattern < j → (numbered ps)[j]? ≠ some (firstPrefixes ps)[i]
  sentinel : (t.node StateId.sentinel).accepting = false
  root : (t.node StateId.root).accepting = false

/-- The states behind the root are those that follow on it. -/
theorem isState_two_add {i : Nat} (ht : t.Linked) (h : i < t.spelled.length) :
    t.IsState (2 + i) := by
  refine ⟨Nat.le_add_right_of_le (by decide), ?_⟩
  rw [length_spelled ht]
  exact Nat.add_lt_add_left h 2

theorem eq_two_add (ht : t.Linked) (hs : t.IsState s) (hr : s ≠ StateId.root) :
    ∃ i, t.spelled[i]? = some (t.pathTo s) ∧ s = 2 + i := by
  have h2 : 2 ≤ s := Nat.lt_of_le_of_ne hs.1 (Ne.symm hr)
  obtain ⟨i, rfl⟩ := Nat.exists_eq_add_of_le h2
  have hi : i < t.spelled.length := by
    have := hs.2
    rw [length_spelled ht] at this
    exact Nat.lt_of_add_lt_add_left this
  exact ⟨i, by rw [List.getElem?_eq_getElem hi, getElem_spelled], rfl⟩

theorem follow?_eq_some_iff_spelled (ht : t.Linked) {w : Pattern} :
    t.follow? StateId.root w = some s ↔
      w = [] ∧ s = StateId.root ∨ ∃ i, t.spelled[i]? = some w ∧ s = 2 + i := by
  rw [follow?_eq_some_iff ht]
  constructor
  · rintro ⟨hs, rfl⟩
    by_cases hr : s = StateId.root
    · exact .inl ⟨hr ▸ pathTo_root t, hr⟩
    · exact .inr (eq_two_add ht hs hr)
  · rintro (⟨rfl, rfl⟩ | ⟨i, hi, rfl⟩)
    · exact ⟨isState_root ht, pathTo_root t⟩
    · obtain ⟨hlt, rfl⟩ := List.getElem?_eq_some_iff.1 hi
      exact ⟨isState_two_add ht hlt, (getElem_spelled hlt).symm⟩

/-! ## The lengths -/

theorem lens_compile (t : Trie) :
    t.compile.lens = (List.range t.size).map fun s => (t.node s).len := by
  have hsize : t.compile.cells.size = t.size := size_compile t
  apply List.ext_getElem
  · simp [Automaton.lens, hsize]
  · intro s h1 h2
    have hs : s < t.size := by simpa using h2
    have hcell := cell_compile hs
    rw [Automaton.cell_of_lt (hsize ▸ hs)] at hcell
    simp [Automaton.lens, hcell]

/-- Sentinel and root bear no length, the others one if they spell a pattern. -/
theorem Holds.lens_compile (ht : t.Holds ps) (hps : [] ∉ ps) :
    t.compile.lens = 0 :: 0 :: t.spelled.map fun w => if w ∈ ps then w.length else 0 := by
  have hrange : List.range t.size = 0 :: 1 :: List.range' 2 (t.size - 2) := by
    obtain ⟨n, hn⟩ := Nat.exists_eq_add_of_le ht.linked.two_le_size
    rw [hn, Nat.add_sub_cancel_left, List.range_eq_range', Nat.add_comm]
    rfl
  rw [Trie.lens_compile, hrange, List.map_cons, List.map_cons, spelled, List.map_map]
  refine congrArg₂ List.cons ht.marked.len_sentinel
    (congrArg₂ List.cons (ht.len_root hps) (List.map_congr_left fun s hs => ?_))
  exact ht.marked.len s ((mem_range'_iff ht.linked).1 hs).1

/-- **The accepting states** are as many as there are distinct patterns. -/
theorem Holds.acceptingCount_compile (ht : t.Holds ps) (hps : [] ∉ ps) :
    t.compile.acceptingCount = ps.eraseDups.length := by
  have hends : (t.spelled.filter (· ∈ ps)).Perm ps.eraseDups := by
    refine (List.perm_ext_iff_of_nodup ((nodup_spelled ht.linked).filter _)
      (nodup_eraseDups ps)).2 fun w => ?_
    rw [List.mem_filter, mem_spelled ht.linked, List.mem_eraseDups, decide_eq_true_iff]
    exact ⟨And.right, fun hw => ⟨⟨fun h => hps (h ▸ hw), ht.contains_of_mem w hw⟩, hw⟩⟩
  rw [Automaton.acceptingCount_eq, ht.lens_compile hps, ← hends.length_eq,
    ← List.countP_eq_length_filter, List.countP_cons_of_neg (by simp),
    List.countP_cons_of_neg (by simp), List.countP_map]
  refine List.countP_congr fun w hw => ?_
  have hne := List.length_pos_iff.2 ((mem_spelled ht.linked).1 hw).1
  by_cases hmem : w ∈ ps <;> simp [hmem, hne]

/-- **The longest length** is that of the longest pattern. -/
theorem Holds.maxPatternLen_compile (ht : t.Holds ps) (hps : [] ∉ ps) :
    t.compile.maxPatternLen = (ps.map List.length).foldl max 0 := by
  refine eq_of_forall_ge_iff fun n => ?_
  rw [Automaton.maxPatternLen_le_iff, foldl_max_le_iff, ht.lens_compile hps]
  simp only [List.forall_mem_cons, List.forall_mem_map, Nat.zero_le, true_and]
  constructor
  · intro h p hp
    have hmem := (mem_spelled ht.linked).2 ⟨fun h => hps (h ▸ hp), ht.contains_of_mem p hp⟩
    simpa [hp] using h p hmem
  · intro h w _
    split
    · exact h w ‹_›
    · exact Nat.zero_le n

end Trie

namespace Builder

variable {ps : List Pattern}

/-- Where a string is a non-empty pattern, the marks of its state are those of the pattern. -/
theorem mem_numbered_of_ne_nil {w : Pattern} (hne : w ≠ []) : w ∈ numbered ps ↔ w ∈ ps := by
  rw [mem_numbered, and_iff_left hne]

/-- **Every builder holds the prefix tree of its patterns**: there is one state for each non-empty
prefix, numbered by first occurrence. So sentinel, root and the distinct prefixes make up the
states, before and after building; the distinct non-empty patterns are the accepting states; and the
longest length is that of the longest pattern. -/
theorem isPrefixTree_addAll (ps : List Pattern) :
    let b := ({} : Builder).addAll ps
    (firstPrefixes ps).Nodup ∧
    (∀ w, w ∈ firstPrefixes ps ↔ w ≠ [] ∧ ∃ p ∈ ps, w <+: p) ∧
    b.trie.IsPrefixTree ps ∧
    b.stateCount = 2 + (firstPrefixes ps).length ∧
    b.build.size = 2 + (firstPrefixes ps).length ∧
    b.build.acceptingCount = (numbered ps).eraseDups.length ∧
    b.build.maxPatternLen = (ps.map List.length).foldl max 0 := by
  intro b
  have hb := collects_addAll ps
  have ht : b.trie.Linked := hb.holds.linked
  have hps := not_nil_mem_numbered ps
  have hspelled : b.trie.spelled = firstPrefixes ps := spelled_addAll ps
  have hsize := Trie.length_spelled ht
  rw [hspelled] at hsize
  have hlongest : (ps.map List.length).foldl max 0 =
      ((numbered ps).map List.length).foldl max 0 := by
    refine eq_of_forall_ge_iff fun n => ?_
    rw [foldl_max_le_iff, foldl_max_le_iff]
    refine and_congr_right fun _ => ?_
    simp only [List.forall_mem_map, mem_numbered, and_imp]
    refine ⟨fun h p hp _ => h p hp, fun h p hp => ?_⟩
    rcases p with _ | ⟨c, p⟩
    · exact Nat.zero_le n
    · exact h _ hp (List.cons_ne_nil c p)
  -- what holds of the states behind the root, by the strings they spell
  have hstate : ∀ i, (h : i < (firstPrefixes ps).length) → b.trie.IsState (2 + i) ∧
      b.trie.pathTo (2 + i) = (firstPrefixes ps)[i] ∧
      ((firstPrefixes ps)[i] ∈ numbered ps ↔ (firstPrefixes ps)[i] ∈ ps) := by
    intro i h
    refine ⟨Trie.isState_two_add ht (hspelled ▸ h), ?_, mem_numbered_of_ne_nil ?_⟩
    · simp only [← hspelled, Trie.getElem_spelled]
    · exact (mem_firstPrefixes.1 (List.getElem_mem h)).1
  refine ⟨nodup_eraseDups _, fun w => mem_firstPrefixes, ?_, hsize, ?_,
    hb.holds.acceptingCount_compile hps, (hb.holds.maxPatternLen_compile hps).trans hlongest.symm⟩
  · refine ⟨hsize, fun i h => ?_, fun w s => ?_, fun s c u hc => ?_, fun i h => ?_,
      fun i h hmem => ?_, ?_, hb.holds.accepting_root hps⟩
    · obtain ⟨hs, hpath, -⟩ := hstate i h
      exact ⟨hpath, hpath ▸ Trie.readsBack_pathTo ht hs⟩
    · rw [← hspelled]
      exact Trie.follow?_eq_some_iff_spelled ht
    · obtain ⟨h1, h2, rfl, -⟩ := (Trie.child?_eq_some_iff ht).1 hc
      exact (ht.parent u h1 h2).2
    · obtain ⟨hs, hpath, hiff⟩ := hstate i h
      rw [hb.holds.marked.len _ hs, hpath]
      simp only [hiff]
    · obtain ⟨hs, hpath, hiff⟩ := hstate i h
      have hlast := hb.holds.marked.pattern _ hs (by rw [hpath]; exact hiff.2 hmem)
      rw [hpath] at hlast
      exact lastIndex?_eq_some_iff.1 hlast
    · rw [Node.accepting, hb.holds.marked.len_sentinel]
      rfl
  · rw [Builder.build, Trie.size_compile, hsize]

/-- For `he`, `she` and `he` again there are two accepting states, and that of `he` bears the newest
index. -/
theorem isPrefixTree_addAll_again :
    let b := ({} : Builder).addAll [[104, 101], [115, 104, 101], [104, 101]]
    b.build.acceptingCount = 2 ∧ b.trie.pathTo 3 = [104, 101] ∧ (b.trie.node 3).pattern = 2 ∧
      ∀ j, 2 < j →
        (numbered [[104, 101], [115, 104, 101], [104, 101]])[j]? ≠ some [104, 101] := by
  intro b
  have htree := isPrefixTree_addAll [[104, 101], [115, 104, 101], [104, 101]]
  have hcount := htree.2.2.2.2.2.1
  have hpath := (htree.2.2.1.spells 1 (by decide)).1
  have hlast := (htree.2.2.1.pattern 1 (by decide) (by decide)).2
  have hindex : (b.trie.node 3).pattern = 2 := by decide +kernel
  refine ⟨hcount.trans (by decide), hpath.trans (by decide), hindex, fun j hj => ?_⟩
  exact hlast j (hindex ▸ hj)

end Builder

end PatternScan

import Mathlib.Data.List.Nodup
import PatternScan.Proofs.Builder
import PatternScan.Proofs.Trie.Suffix

/-!
# The numbers of states

The states behind the root are numbered in the order in which the prefixes they spell first occur in
the patterns. `Trie.spelled` lists these prefixes by the numbers of their states, and
`Builder.firstPrefixes` reads the same list off the patterns (`spelled_addAll`).
-/

namespace PatternScan

/-! ## First occurrences -/

section EraseDups

variable {α : Type} [BEq α] [LawfulBEq α]

theorem eraseDups_append_singleton (l : List α) (a : α) :
    (l ++ [a]).eraseDups = if a ∈ l then l.eraseDups else l.eraseDups ++ [a] := by
  have hsingle : [a].eraseDups = [a] := by rw [List.eraseDups_cons]; rfl
  rw [List.eraseDups_append]
  by_cases h : a ∈ l <;> simp [List.removeAll, h, hsingle]

theorem nodup_eraseDups (l : List α) : l.eraseDups.Nodup := by
  induction l using List.reverseRecOn with
  | nil => exact List.nodup_nil
  | append_singleton l a ih =>
    rw [eraseDups_append_singleton]
    split
    · exact ih
    · rename_i h
      refine List.nodup_append.2 ⟨ih, List.nodup_singleton a, fun b hb c hc heq => h ?_⟩
      rw [← List.mem_singleton.1 hc, ← heq]
      exact List.mem_eraseDups.1 hb

theorem eraseDups_of_nodup {l : List α} (h : l.Nodup) : l.eraseDups = l := by
  induction l using List.reverseRecOn with
  | nil => rfl
  | append_singleton l a ih =>
    obtain ⟨hl, -, hdisjoint⟩ := List.nodup_append.1 h
    have hmem : a ∉ l := fun hmem => hdisjoint a hmem a (by simp) rfl
    rw [eraseDups_append_singleton, if_neg hmem, ih hl]

theorem eraseDups_eraseDups_append (l l' : List α) :
    (l.eraseDups ++ l').eraseDups = (l ++ l').eraseDups := by
  induction l' using List.reverseRecOn with
  | nil => rw [List.append_nil, List.append_nil, eraseDups_of_nodup (nodup_eraseDups l)]
  | append_singleton l' a ih =>
    rw [← List.append_assoc, ← List.append_assoc, eraseDups_append_singleton,
      eraseDups_append_singleton, ih]
    simp only [List.mem_append, List.mem_eraseDups]

end EraseDups

namespace Builder

/-- The non-empty prefixes of a string, by increasing length. -/
def prefixes : Pattern → List Pattern
  | [] => []
  | c :: p => [c] :: (prefixes p).map (c :: ·)

/-- The non-empty prefixes of some patterns, each once, in the order in which they first occur. -/
def firstPrefixes (ps : List Pattern) : List Pattern :=
  (ps.flatMap prefixes).eraseDups

theorem mem_prefixes {w p : Pattern} : w ∈ prefixes p ↔ w ≠ [] ∧ w <+: p := by
  induction p generalizing w with
  | nil => simp [prefixes]
  | cons c p ih =>
    rw [prefixes, List.mem_cons, List.mem_map]
    constructor
    · rintro (rfl | ⟨v, hv, rfl⟩)
      · exact ⟨List.cons_ne_nil _ _, List.prefix_append [c] p⟩
      · exact ⟨List.cons_ne_nil _ _, List.cons_prefix_cons.2 ⟨rfl, (ih.1 hv).2⟩⟩
    · rintro ⟨hne, hw⟩
      rcases w with _ | ⟨d, w⟩
      · exact absurd rfl hne
      · obtain ⟨rfl, htail⟩ := List.cons_prefix_cons.1 hw
        rcases w with _ | ⟨e, w⟩
        · exact .inl rfl
        · exact .inr ⟨e :: w, ih.2 ⟨List.cons_ne_nil _ _, htail⟩, rfl⟩

theorem mem_firstPrefixes {ps : List Pattern} {w : Pattern} :
    w ∈ firstPrefixes ps ↔ w ≠ [] ∧ ∃ p ∈ ps, w <+: p := by
  simp only [firstPrefixes, List.mem_eraseDups, List.mem_flatMap, mem_prefixes]
  constructor
  · rintro ⟨p, hp, hne, hw⟩
    exact ⟨hne, p, hp, hw⟩
  · rintro ⟨hne, p, hp, hw⟩
    exact ⟨p, hp, hne, hw⟩

end Builder

namespace Trie

open Builder (prefixes firstPrefixes mem_firstPrefixes)

variable {t t' : Trie} {s : StateId}

/-- The strings of the states behind the root, by the numbers of the states. -/
def spelled (t : Trie) : List Pattern :=
  (List.range' 2 (t.size - 2)).map t.pathTo

theorem mem_range'_iff (ht : t.Linked) : s ∈ List.range' 2 (t.size - 2) ↔
    t.IsState s ∧ s ≠ StateId.root := by
  have h2 : 2 ≤ t.size := ht.two_le_size
  have hsum : 2 + (t.size - 2) = t.size := by omega
  rw [List.mem_range'_1, hsum]
  constructor
  · rintro ⟨h1, hlt⟩
    exact ⟨⟨Nat.le_of_lt h1, hlt⟩, Nat.ne_of_gt h1⟩
  · rintro ⟨hs, hne⟩
    exact ⟨Nat.lt_of_le_of_ne hs.1 (Ne.symm hne), hs.2⟩

theorem nodup_spelled (ht : t.Linked) : t.spelled.Nodup := by
  refine (List.nodup_map_iff_inj_on List.nodup_range').2 fun s hs u hu heq => ?_
  exact pathTo_injective ht ((mem_range'_iff ht).1 hs).1 ((mem_range'_iff ht).1 hu).1 heq

theorem mem_spelled (ht : t.Linked) {w : Pattern} : w ∈ t.spelled ↔ w ≠ [] ∧ t.Contains w := by
  rw [spelled, List.mem_map, contains_iff ht]
  simp only [mem_range'_iff ht]
  constructor
  · rintro ⟨s, ⟨hs, hr⟩, rfl⟩
    exact ⟨pathTo_ne_nil ht hs hr, s, hs, rfl⟩
  · rintro ⟨hne, s, hs, rfl⟩
    refine ⟨s, ⟨hs, ?_⟩, rfl⟩
    rintro rfl
    exact hne (pathTo_root t)

theorem length_spelled (ht : t.Linked) : t.size = 2 + t.spelled.length := by
  have h2 : 2 ≤ t.size := ht.two_le_size
  rw [spelled, List.length_map, List.length_range']
  omega

theorem getElem_spelled {i : Nat} (h : i < t.spelled.length) :
    t.spelled[i] = t.pathTo (2 + i) := by
  simp [spelled]

/-! ## Growth -/

/-- The states that are there keep their numbers. -/
theorem Grows.spelled_prefix (hg : t.Grows t') (ht : t.Linked) (ht' : t'.Linked) :
    t'.spelled = t.spelled ++ (List.range' t.size (t'.size - t.size)).map t'.pathTo := by
  have h2 : 2 ≤ t.size := ht.two_le_size
  have hsize := hg.size_le
  have hsplit : List.range' 2 (t'.size - 2) =
      List.range' 2 (t.size - 2) ++ List.range' t.size (t'.size - t.size) := by
    rw [show t'.size - 2 = (t.size - 2) + (t'.size - t.size) by omega, ← List.range'_append_1]
    congr 2
    omega
  rw [spelled, hsplit, List.map_append]
  congr 1
  refine List.map_congr_left fun s hs => ?_
  exact hg.pathTo ht ht' ((mem_range'_iff ht).1 hs).1

/-- **One byte of an insertion** adds at most the string it leads to, behind all others. -/
theorem spelled_childOrInsert (ht : t.Linked) (hs : t.IsState s) (c : UInt8) :
    (t.childOrInsert s c).1.spelled = (t.spelled ++ [t.pathTo s ++ [c]]).eraseDups := by
  obtain ⟨h1, hg, hc, -⟩ := childOrInsert_spec ht hs c
  rw [eraseDups_append_singleton, eraseDups_of_nodup (nodup_spelled ht)]
  cases h : t.child? s c with
  | some u =>
    have hmem : t.pathTo s ++ [c] ∈ t.spelled := by
      refine (mem_spelled ht).2 ⟨by simp, (contains_iff ht).2 ⟨u, isState_of_child? ht h, ?_⟩⟩
      exact pathTo_of_child? ht h
    rw [if_pos hmem, childOrInsert, h]
  | none =>
    have hmem : t.pathTo s ++ [c] ∉ t.spelled := fun hmem =>
      not_contains_append ht hs h ((mem_spelled ht).1 hmem).2
    have hsize : (t.childOrInsert s c).1.size = t.size + 1 := by simp [childOrInsert, h, size]
    have hnew : (t.childOrInsert s c).2 = t.size := by rw [childOrInsert, h]; rfl
    rw [if_neg hmem, hg.spelled_prefix ht h1, hsize, Nat.add_sub_cancel_left, List.range'_one,
      List.map_singleton, ← hnew, pathTo_of_child? h1 hc, hg.pathTo ht h1 hs]

/-- **Threading a pattern** adds the prefixes that are new, in the order of their lengths. -/
theorem spelled_thread (p : Pattern) (ht : t.Linked) (hs : t.IsState s) :
    (t.thread s p).1.spelled =
      (t.spelled ++ (prefixes p).map (t.pathTo s ++ ·)).eraseDups := by
  induction p generalizing t s with
  | nil => simp [thread, prefixes, eraseDups_of_nodup (nodup_spelled ht)]
  | cons c p ih =>
    obtain ⟨h1, hg, hc, -⟩ := childOrInsert_spec ht hs c
    have hspelled := spelled_childOrInsert ht hs c
    unfold thread
    generalize t.childOrInsert s c = r at h1 hg hc hspelled
    obtain ⟨t₁, u⟩ := r
    simp only at h1 hg hc hspelled ⊢
    rw [ih h1 (isState_of_child? h1 hc), hspelled, eraseDups_eraseDups_append,
      pathTo_of_child? h1 hc, hg.pathTo ht h1 hs]
    simp [prefixes, Function.comp_def]

theorem spelled_mark (ht : t.Linked) (hs : s < t.size) (len index : Nat) :
    (t.mark s len index).spelled = t.spelled := by
  rw [spelled, spelled, size_mark]
  refine List.map_congr_left fun v hv => ?_
  exact pathTo_mark ht hs ((mem_range'_iff ht).1 hv).1

theorem spelled_insert (ht : t.Linked) (p : Pattern) (index : Nat) :
    (t.insert p index).spelled = (t.spelled ++ prefixes p).eraseDups := by
  obtain ⟨h1, -, hend, -, -⟩ := thread_spec p ht (isState_root ht)
  have hthread := spelled_thread p ht (isState_root ht)
  rw [pathTo_root] at hthread
  simp only [List.nil_append, List.map_id'] at hthread
  rw [Trie.insert, spelled_mark h1 hend.2, hthread]

end Trie

namespace Builder

/-- **The states of a builder are numbered by the first occurrences of their strings.** -/
theorem spelled_addAll (ps : List Pattern) :
    (({} : Builder).addAll ps).trie.spelled = firstPrefixes ps := by
  induction ps using List.reverseRecOn with
  | nil => rfl
  | append_singleton ps p ih =>
    have ht := (collects_addAll ps).holds.linked
    rw [addAll, List.foldl_append, List.foldl_cons, List.foldl_nil, ← addAll, add, firstPrefixes,
      List.flatMap_append, ← eraseDups_eraseDups_append, ← firstPrefixes, ← ih]
    cases p with
    | nil => simp [prefixes, eraseDups_of_nodup (Trie.nodup_spelled ht)]
    | cons c p =>
      simp only [List.isEmpty_cons, Bool.false_eq_true, if_false, List.flatMap_singleton]
      exact Trie.spelled_insert ht _ _

end Builder

end PatternScan

import PatternScan.Builder
import PatternScan.Proofs.Trie.Insertion

/-!
# What a builder has collected

`Builder.numbered` lists the patterns that take an index, `Builder.lastIndex?` is the last index a
pattern received, and `Trie.Holds` says that a trie consists of the prefixes of such a list and is
marked with lengths and last indices where a whole pattern ends. `Builder.collects_addAll`
proves this of every builder.
-/

namespace PatternScan

namespace Builder

/-- The patterns that take an index, in order. -/
def numbered (ps : List Pattern) : List Pattern :=
  ps.filter (!·.isEmpty)

/-- The last index of `w` in a list of patterns. -/
def lastIndex? (ps : List Pattern) (w : Pattern) : Option Nat :=
  ps.zipIdx.reverse.lookup w

theorem mem_numbered {ps : List Pattern} {w : Pattern} : w ∈ numbered ps ↔ w ∈ ps ∧ w ≠ [] := by
  simp [numbered, List.mem_filter]

theorem not_nil_mem_numbered (ps : List Pattern) : [] ∉ numbered ps := by
  simp [numbered]

theorem lastIndex?_append_singleton (ps : List Pattern) (p w : Pattern) :
    lastIndex? (ps ++ [p]) w = if w = p then some ps.length else lastIndex? ps w := by
  simp only [lastIndex?, List.zipIdx_append, List.zipIdx_singleton, List.reverse_append,
    List.reverse_singleton, List.singleton_append, List.lookup_cons, Nat.zero_add]
  by_cases h : w = p
  · simp [h]
  · rw [beq_eq_false_iff_ne.2 h, if_neg h]

@[simp] theorem lastIndex?_nil (w : Pattern) : lastIndex? [] w = none := rfl

/-- A last index is the place of the pattern, and no later place holds it. -/
theorem lastIndex?_eq_some_iff {ps : List Pattern} {w : Pattern} {i : Nat} :
    lastIndex? ps w = some i ↔ ps[i]? = some w ∧ ∀ j, i < j → ps[j]? ≠ some w := by
  induction ps using List.reverseRecOn with
  | nil => simp
  | append_singleton ps p ih =>
    rw [lastIndex?_append_singleton]
    have hlast : (ps ++ [p])[ps.length]? = some p := by simp
    have hout : ∀ j, ps.length < j → (ps ++ [p])[j]? = none := fun j hj => by simp; omega
    split
    · rename_i h
      subst h
      constructor
      · rintro ⟨⟩
        exact ⟨hlast, fun j hj => by simp [hout j hj]⟩
      · rintro ⟨hi, hj⟩
        rcases Nat.lt_trichotomy i ps.length with hlt | rfl | hlt
        · exact absurd hlast (hj _ hlt)
        · rfl
        · simp [hout i hlt] at hi
    · rename_i h
      rw [ih]
      have hold : ∀ j : Nat, (ps ++ [p])[j]? = some w ↔ ps[j]? = some w := by
        intro j
        rcases Nat.lt_trichotomy j ps.length with hlt | rfl | hlt
        · rw [List.getElem?_append_left hlt]
        · simp [Ne.symm h]
        · simp [hout j hlt, List.getElem?_eq_none (Nat.le_of_lt hlt)]
      simp only [Ne, hold]

theorem lastIndex?_isSome {ps : List Pattern} {w : Pattern} :
    (lastIndex? ps w).isSome ↔ w ∈ ps := by
  induction ps using List.reverseRecOn with
  | nil => simp
  | append_singleton ps p ih =>
    rw [lastIndex?_append_singleton, List.mem_append, List.mem_singleton]
    split
    · rename_i h
      simp [h]
    · rename_i h
      simp [ih, h]

end Builder

namespace Trie

open Builder (lastIndex? lastIndex?_append_singleton)

variable {t t' : Trie} {ps : List Pattern}

/-! ## Marks -/

/-- Where a pattern of `ps` ends, the trie is marked with its length and last index, and nowhere
else. No index is larger than the number of patterns. -/
structure Marked (t : Trie) (ps : List Pattern) : Prop where
  len : ∀ s, t.IsState s → (t.node s).len = if t.pathTo s ∈ ps then (t.pathTo s).length else 0
  pattern : ∀ s, t.IsState s → t.pathTo s ∈ ps →
    lastIndex? ps (t.pathTo s) = some (t.node s).pattern
  len_sentinel : (t.node StateId.sentinel).len = 0
  pattern_le : ∀ s, (t.node s).pattern ≤ ps.length

/-- A state that spells one of the strings of `t` in a grown trie is a state of `t`. -/
theorem Grows.isState_of_contains (hg : t.Grows t') (ht : t.Linked) (ht' : t'.Linked) {v : StateId}
    (hv : t'.IsState v) (hc : t.Contains (t'.pathTo v)) : t.IsState v := by
  obtain ⟨u, hu, hp⟩ := (contains_iff ht).1 hc
  rw [← hg.pathTo ht ht' hu] at hp
  exact pathTo_injective ht' (hg.isState hu) hv hp ▸ hu

theorem Marked.of_grows (hm : t.Marked ps) (hg : t.Grows t') (ht : t.Linked) (ht' : t'.Linked)
    (hps : ∀ p ∈ ps, t.Contains p) : t'.Marked ps where
  len v hv := by
    rw [hg.len]
    by_cases hlt : v < t.size
    · rw [hg.pathTo ht ht' ⟨hv.1, hlt⟩, hm.len v ⟨hv.1, hlt⟩]
    · have hnew : t'.pathTo v ∉ ps := fun hmem =>
        hlt (hg.isState_of_contains ht ht' hv (hps _ hmem)).2
      rw [node_of_size_le (Nat.not_lt.1 hlt), if_neg hnew]
  pattern v hv hmem := by
    have hold := hg.isState_of_contains ht ht' hv (hps _ hmem)
    rw [hg.pathTo ht ht' hold] at hmem ⊢
    rw [hg.pattern, hm.pattern v hold hmem]
  len_sentinel := by rw [hg.len, hm.len_sentinel]
  pattern_le v := by
    rw [hg.pattern]
    exact hm.pattern_le v

/-- Marking the end of a pattern with the next index. -/
theorem Marked.mark (hm : t.Marked ps) (ht : t.Linked) {s : StateId} (hs : t.IsState s) :
    (t.mark s (t.pathTo s).length ps.length).Marked (ps ++ [t.pathTo s]) := by
  have hends : ∀ v, t.IsState v → (t.pathTo v = t.pathTo s ↔ v = s) := fun v hv =>
    ⟨pathTo_injective ht hv hs, fun h => h ▸ rfl⟩
  refine ⟨fun v hv => ?_, fun v hv hmem => ?_, ?_, fun v => ?_⟩
  · rw [isState_mark] at hv
    rw [pathTo_mark ht hs.2 hv, node_mark t hs.2]
    simp only [List.mem_append, List.mem_singleton, hends v hv]
    split
    · rename_i h
      rw [if_pos (.inr h), h]
    · rename_i h
      rw [hm.len v hv]
      simp only [h, or_false]
  · rw [isState_mark] at hv
    rw [pathTo_mark ht hs.2 hv, List.mem_append, List.mem_singleton] at hmem
    rw [pathTo_mark ht hs.2 hv, node_mark t hs.2, lastIndex?_append_singleton]
    by_cases h : v = s
    · rw [if_pos h, if_pos ((hends v hv).2 h)]
    · have hne : t.pathTo v ≠ t.pathTo s := fun h' => h ((hends v hv).1 h')
      rw [if_neg h, if_neg hne]
      exact hm.pattern v hv (hmem.resolve_right hne)
  · have hne : StateId.sentinel ≠ s := Nat.ne_of_lt hs.1
    rw [node_mark t hs.2, if_neg hne, hm.len_sentinel]
  · rw [node_mark t hs.2, List.length_append, List.length_singleton]
    split
    · exact Nat.le_succ _
    · exact Nat.le_succ_of_le (hm.pattern_le v)

/-- The trie spells the prefixes of the patterns `ps`, and bears the marks of their ends. -/
structure Holds (t : Trie) (ps : List Pattern) : Prop where
  linked : t.Linked
  contains : ∀ w, t.Contains w ↔ w = [] ∨ ∃ p ∈ ps, w <+: p
  marked : t.Marked ps

theorem holds_empty : empty.Holds [] where
  linked := linked_empty
  contains w := by
    rw [contains_iff linked_empty]
    constructor
    · rintro ⟨s, hs, rfl⟩
      obtain rfl : s = StateId.root := Nat.le_antisymm (Nat.le_of_lt_succ hs.2) hs.1
      exact .inl (pathTo_root _)
    · rintro (rfl | ⟨p, hp, -⟩)
      · exact ⟨_, isState_root linked_empty, pathTo_root _⟩
      · exact absurd hp List.not_mem_nil
  marked := by
    refine ⟨fun s hs => ?_, fun s _ h => absurd h List.not_mem_nil, rfl, fun s => ?_⟩
    · obtain rfl : s = StateId.root := Nat.le_antisymm (Nat.le_of_lt_succ hs.2) hs.1
      rfl
    · match s with
      | 0 | 1 | _ + 2 => exact Nat.le_refl 0

theorem Holds.contains_of_mem (ht : t.Holds ps) : ∀ p ∈ ps, t.Contains p := fun p hp =>
  (ht.contains p).2 (.inr ⟨p, hp, List.prefix_rfl⟩)

/-- Without an empty pattern no pattern ends at the root. -/
theorem Holds.len_root (ht : t.Holds ps) (hps : [] ∉ ps) : (t.node StateId.root).len = 0 := by
  rw [ht.marked.len _ (isState_root ht.linked), pathTo_root, if_neg hps]

theorem Holds.accepting_root (ht : t.Holds ps) (hps : [] ∉ ps) :
    (t.node StateId.root).accepting = false := by
  rw [Node.accepting, ht.len_root hps]
  rfl

/-- **Inserting a pattern** under the next index. -/
theorem Holds.insert (ht : t.Holds ps) (p : Pattern) :
    (t.insert p ps.length).Holds (ps ++ [p]) := by
  obtain ⟨h1, hg, hs, hpath, hw⟩ := thread_spec p ht.linked (isState_root ht.linked)
  rw [pathTo_root, List.nil_append] at hpath
  have hm := (ht.marked.of_grows hg ht.linked h1 ht.contains_of_mem).mark h1 hs
  rw [hpath] at hm
  refine ⟨linked_mark h1 hs.2, fun w => ?_, hm⟩
  rw [Trie.insert, Contains, follow?_mark hs.2, ← Contains, hw, ht.contains, pathTo_root]
  simp only [List.nil_append, List.mem_append, List.mem_singleton, or_and_right, exists_or,
    exists_eq_left, exists_eq_right', or_assoc]

end Trie

namespace Builder

theorem patternCount_addAll (b : Builder) {ps : List Pattern} (hps : ∀ p ∈ ps, p ≠ []) :
    (b.addAll ps).patternCount = b.patternCount + ps.length := by
  induction ps generalizing b with
  | nil => rfl
  | cons p ps ih =>
    obtain ⟨hp, hps⟩ := List.forall_mem_cons.1 hps
    have hadd : (b.add p).patternCount = b.patternCount + 1 := by
      rw [add, if_neg (mt List.isEmpty_iff.1 hp)]
    rw [addAll, List.foldl_cons, ← addAll, ih (b.add p) hps, hadd, List.length_cons]
    omega

/-- A builder that has numbered the patterns `ps`. -/
structure Collects (b : Builder) (ps : List Pattern) : Prop where
  holds : b.trie.Holds ps
  patternCount : b.patternCount = ps.length

theorem Collects.add {b : Builder} {ps : List Pattern} (hb : b.Collects ps) (p : Pattern) :
    (b.add p).Collects (ps ++ numbered [p]) := by
  rw [Builder.add]
  cases hp : p.isEmpty with
  | true => simpa [numbered, hp] using hb
  | false =>
    have hnum : numbered [p] = [p] := by simp [numbered, hp]
    rw [if_neg Bool.false_ne_true, hnum, hb.patternCount]
    exact ⟨hb.holds.insert p, by simp⟩

theorem Collects.addAll {b : Builder} {ps : List Pattern} (hb : b.Collects ps)
    (qs : List Pattern) : (b.addAll qs).Collects (ps ++ numbered qs) := by
  induction qs generalizing b ps with
  | nil => simpa [numbered, Builder.addAll] using hb
  | cons q qs ih =>
    have := ih (hb.add q)
    rwa [List.append_assoc, numbered, numbered, ← List.filter_append] at this

/-- **A builder holds the patterns it was given.** -/
theorem collects_addAll (ps : List Pattern) :
    (({} : Builder).addAll ps).Collects (numbered ps) := by
  have h : ({} : Builder).Collects [] := ⟨Trie.holds_empty, rfl⟩
  simpa using h.addAll ps

end Builder

end PatternScan

import PatternScan.Proofs.Builder
import PatternScan.Proofs.Container.Check
import PatternScan.Proofs.Trie.Table

/-!
# Compiled tables pass the check

`Holds.sound`: the automaton of a trie that holds patterns satisfies the conditions on a table from
outside. The one that speaks of the whole graph is that of the lengths: the distance of a state in
the compiled graph is no smaller than its depth in the trie, as a string leads to a state that
spells a suffix of it.
-/

namespace PatternScan.Trie

variable {t : Trie} {ps : List Pattern}

/-- The length that is marked is 0 or that of the path. -/
theorem Holds.len_le (ht : t.Holds ps) {s : StateId} (hs : t.IsState s) :
    (t.node s).len ≤ (t.pathTo s).length := by
  rw [ht.marked.len s hs]
  split
  · exact Nat.le_refl _
  · exact Nat.zero_le _

/-- A state links to an accepting state that spells a proper suffix of its path. -/
theorem Holds.link_spec (ht : t.Holds ps) (hps : [] ∉ ps) {s : StateId} (hs : t.IsState s)
    (hlink : (t.compile.cell s).link ≠ StateId.sentinel) :
    t.IsState (t.compile.cell s).link ∧ 0 < (t.node (t.compile.cell s).link).len ∧
      (t.node (t.compile.cell s).link).len < (t.pathTo s).length := by
  have hchain := chain_compile ht.linked (ht.accepting_root hps) hs
  generalize (t.compile.cell s).link = u at hlink hchain
  cases hends : t.ends (t.pathTo s).tail with
  | nil =>
    rw [hends] at hchain
    cases hchain
    exact absurd rfl hlink
  | cons v vs =>
    rw [hends] at hchain
    cases hchain
    obtain ⟨hstate, -, hsuffix, hpos⟩ := (mem_ends ht.linked).1 (hends ▸ List.mem_cons_self)
    refine ⟨hstate, hpos, ?_⟩
    have hlen := ht.len_le hstate
    have hle := hsuffix.length_le
    rw [List.length_tail] at hle
    omega

theorem Holds.cell_sentinel (ht : t.Holds ps) :
    (t.compile.cell StateId.sentinel).len = 0 ∧
      (t.compile.cell StateId.sentinel).link = StateId.sentinel ∧
      ∀ c, (t.compile.cell StateId.sentinel).step c = StateId.root := by
  have hsize : StateId.sentinel < t.size := Nat.lt_of_succ_lt ht.linked.two_le_size
  rw [cell_compile hsize]
  refine ⟨ht.marked.len_sentinel, getD_dictLinks_sentinel ht.linked, fun c => ?_⟩
  simp only [Cell.step, getD_rows_sentinel ht.linked]
  exact get_homeRow _

theorem Holds.target (ht : t.Holds ps) {s : StateId} (hs : s < t.size) (c : UInt8) :
    t.IsState ((t.compile.cell s).step c) := by
  rcases eq_sentinel_or_isState hs with rfl | hstate
  · rw [ht.cell_sentinel.2.2 c]
    exact isState_root ht.linked
  · rw [step_compile ht.linked hstate]
    exact isState_home ht.linked _

/-- **A compiled table satisfies the conditions on a table from outside.** -/
theorem Holds.sound (ht : t.Holds ps) (hps : [] ∉ ps) : t.compile.Sound := by
  have hlen : ∀ {s}, s < t.size → (t.compile.cell s).len = (t.node s).len := by
    intro s hs
    rw [cell_compile hs]
  -- the sentinel does not link, so that a state that links is one of the trie
  have hstate : ∀ {s}, s < t.size → (t.compile.cell s).link ≠ StateId.sentinel → t.IsState s := by
    intro s hs hlink
    refine ⟨Nat.pos_of_ne_zero ?_, hs⟩
    rintro rfl
    exact hlink ht.cell_sentinel.2.1
  refine ⟨⟨fun s hs c => ?_, ?_, fun s hs hlink => ?_⟩, fun s d hd => ?_⟩
  · rw [size_compile] at hs ⊢
    have htarget := ht.target hs c
    exact ⟨Nat.ne_of_gt htarget.1, htarget.2⟩
  · rintro s (rfl | rfl)
    · exact ⟨ht.cell_sentinel.1, ht.cell_sentinel.2.1⟩
    · have hr := isState_root ht.linked
      refine ⟨by rw [hlen hr.2, ht.len_root hps], ?_⟩
      rw [cell_compile hr.2]
      exact getD_dictLinks_root ht.linked
  · rw [size_compile] at hs ⊢
    have hs' := hstate hs hlink
    obtain ⟨hu, hpos, hlt⟩ := ht.link_spec hps hs' hlink
    rw [hlen hu.2, hlen hs]
    refine ⟨hu.2, hpos, fun hown => ?_⟩
    rw [ht.marked.len s hs'] at hown ⊢
    split at hown
    · rwa [if_pos ‹_›]
    · exact absurd hown (Nat.lt_irrefl 0)
  · obtain ⟨w, rfl, rfl⟩ := hd.exists_after
    rw [after_compile ht.linked] at hd ⊢
    have hs := isState_home ht.linked w
    have hdepth := length_pathTo_home_le ht.linked w
    rw [hlen hs.2]
    refine ⟨Nat.le_trans (ht.len_le hs) hdepth, fun hlink => ?_⟩
    obtain ⟨hu, -, hlt⟩ := ht.link_spec hps hs hlink
    rw [hlen hu.2]
    exact Nat.le_trans (Nat.le_of_lt hlt) hdepth

end PatternScan.Trie

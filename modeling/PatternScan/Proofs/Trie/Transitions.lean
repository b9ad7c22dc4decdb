import PatternScan.Proofs.Trie.Search
import PatternScan.Proofs.Trie.Table

/-!
# The transition table of a trie

`Trie.IsTransitionTable` says what a transition table has to hold: on every state and byte the end
of the climb along the failure links, which is the state of the longest suffix that the trie spells.
`isTransitionTable_rows` proves it of the rows that are copied from failure targets. Hence a built
automaton is after any text in the state of the longest suffix that begins a pattern
(`transitions_addAll`).
-/

namespace PatternScan

namespace Trie

variable {t : Trie} {s : StateId}

/-- The state `u` spells the longest suffix of `w` that the trie spells. -/
structure IsHome (t : Trie) (w : Pattern) (u : StateId) : Prop where
  isState : t.IsState u
  suffix : t.pathTo u <:+ w
  longest : ∀ v, t.Contains v → v <:+ w → v.length ≤ (t.pathTo u).length

theorem isHome_home (ht : t.Linked) (w : Pattern) : t.IsHome w (t.home w) where
  isState := isState_home ht w
  suffix := (home_spec ht w).2
  longest _ hv hsuffix := (suffix_pathTo_home ht hv hsuffix).length_le

/-- A table with one row for every state, the sentinel included, for the given failure links. -/
structure IsTransitionTable (t : Trie) (fail : Array StateId) (rows : Array Row) : Prop where
  size : rows.size = t.size
  /-- The climb from a state ends at its entry, and nowhere else. -/
  climbs : ∀ s (hs : s < rows.size) (c : UInt8) (u : StateId),
    t.Climbs fail c s u ↔ rows[s].get ⟨c.toNat, c.toNat_lt⟩ = u
  target : ∀ s (hs : s < rows.size) (c : UInt8),
    StateId.root ≤ rows[s].get ⟨c.toNat, c.toNat_lt⟩ ∧ rows[s].get ⟨c.toNat, c.toNat_lt⟩ < t.size
  home : ∀ s (hs : s < rows.size) (c : UInt8), t.IsState s →
    t.IsHome (t.pathTo s ++ [c]) (rows[s].get ⟨c.toNat, c.toNat_lt⟩)

/-! ## The rows -/

@[simp] theorem size_rows (ht : t.Linked) : (t.rows t.failLinks).size = t.size :=
  (rowInv_rows ht).size

theorem getElem_rows (hs : s < (t.rows t.failLinks).size) :
    (t.rows t.failLinks)[s] = (t.rows t.failLinks).getD s homeRow := by
  rw [Array.getD, dif_pos hs]
  rfl

theorem get_rows_sentinel (ht : t.Linked) (hs : StateId.sentinel < (t.rows t.failLinks).size)
    (i : Fin 256) : (t.rows t.failLinks)[StateId.sentinel].get i = StateId.root := by
  rw [getElem_rows, getD_rows_sentinel ht, get_homeRow]

theorem get_rows (ht : t.Linked) (hs : t.IsState s) (h : s < (t.rows t.failLinks).size)
    (c : UInt8) :
    (t.rows t.failLinks)[s].get ⟨c.toNat, c.toNat_lt⟩ = t.home (t.pathTo s ++ [c]) := by
  rw [getElem_rows, getD_rows ht hs]

/-- **The climb along the failure links** from a state ends in the home of its path and the byte. -/
theorem climbs_home (ht : t.Linked) (hs : t.IsState s) (c : UInt8) :
    t.Climbs t.failLinks c s (t.home (t.pathTo s ++ [c])) := by
  have hfail := linkedUpTo_failLinks ht (t.pathTo s).length
  have hdepth : (t.pathTo s).length < t.size := Nat.lt_trans (length_pathTo_lt ht hs) hs.2
  have hclimb :=
    climbs_chase ht hfail (failInv_failLinks ht).size c t.size hs (Nat.le_refl _) hdepth
  rwa [chase_eq ht hfail c t.size hs (Nat.le_refl _) hdepth] at hclimb

/-- **Copied rows hold what the climb finds**: the row of a state, taken over from its failure
target but for the bytes it has edges for, is that of the climbs from it. -/
theorem isTransitionTable_rows (ht : t.Linked) :
    t.IsTransitionTable t.failLinks (t.rows t.failLinks) := by
  have hsize := size_rows ht
  -- every climb has one end, so it is enough to find the climb to the entry
  have hclimb : ∀ s (hs : s < (t.rows t.failLinks).size) (c : UInt8),
      t.Climbs t.failLinks c s ((t.rows t.failLinks)[s].get ⟨c.toNat, c.toNat_lt⟩) := by
    intro s hs c
    rcases eq_sentinel_or_isState (hsize ▸ hs) with rfl | hstate
    · rw [get_rows_sentinel ht]
      exact .home
    · rw [get_rows ht hstate]
      exact climbs_home ht hstate c
  refine ⟨hsize, fun s hs c u => ⟨(hclimb s hs c).deterministic, ?_⟩, fun s hs c => ?_,
    fun s hs c hstate => ?_⟩
  · rintro rfl
    exact hclimb s hs c
  · rcases eq_sentinel_or_isState (hsize ▸ hs) with rfl | hstate
    · rw [get_rows_sentinel ht]
      exact isState_root ht
    · rw [get_rows ht hstate]
      exact isState_home ht _
  · rw [get_rows ht hstate]
    exact isHome_home ht _

/-- The rows are those of the compiled automaton. -/
theorem next_compile (ht : t.Linked) (hs : s < t.size) :
    (t.rows t.failLinks)[s]? = some (t.compile.cell s).next := by
  have hlt : s < (t.rows t.failLinks).size := (size_rows ht).symm ▸ hs
  rw [cell_compile hs, Array.getElem?_eq_getElem hlt, getElem_rows hlt]

end Trie

namespace Builder

/-- The strings of a builder's trie are the prefixes of its patterns. -/
theorem contains_addAll (ps : List Pattern) (w : Pattern) :
    (({} : Builder).addAll ps).trie.Contains w ↔ w = [] ∨ ∃ p ∈ ps, w <+: p := by
  rw [(collects_addAll ps).holds.contains]
  constructor
  · rintro (hw | ⟨p, hp, hw⟩)
    · exact .inl hw
    · exact .inr ⟨p, (mem_numbered.1 hp).1, hw⟩
  · rintro (hw | ⟨p, hp, hw⟩)
    · exact .inl hw
    · by_cases hne : p = []
      · -- an empty pattern is left out, but the root is there without it
        exact .inl (List.prefix_nil.1 (hne ▸ hw))
      · exact .inr ⟨p, mem_numbered.2 ⟨hp, hne⟩, hw⟩

/-- **The transition table of a builder's trie**, and with it that of the built automaton, holds
what climbing the failure links gives. After any text the automaton is in the state of the longest
suffix of the text that begins one of the patterns, and in the root if that suffix is empty. -/
theorem transitions_addAll (ps : List Pattern) :
    let b := ({} : Builder).addAll ps
    b.trie.IsTransitionTable b.trie.failLinks (b.trie.rows b.trie.failLinks) ∧
    (∀ s, s < b.trie.size →
      (b.trie.rows b.trie.failLinks)[s]? = some (b.build.cell s).next) ∧
    ∀ text : List UInt8, ∃ w, b.trie.follow? StateId.root w = some (b.build.after text) ∧
      w <:+ text ∧ (w = [] ∨ ∃ p ∈ ps, w <+: p) ∧
      ∀ v, v <:+ text → (∃ p ∈ ps, v <+: p) → v.length ≤ w.length := by
  intro b
  have hb : b.trie.Holds (numbered ps) := (collects_addAll ps).holds
  have ht := hb.linked
  refine ⟨Trie.isTransitionTable_rows ht, fun s hs => Trie.next_compile ht hs, fun text => ?_⟩
  have hafter : b.build.after text = b.trie.home text := Trie.after_compile ht text
  have hhome := Trie.isHome_home ht text
  rw [hafter]
  generalize b.trie.home text = s at hhome
  refine ⟨b.trie.pathTo s, Trie.follow?_pathTo ht hhome.isState, hhome.suffix, ?_, ?_⟩
  · exact (contains_addAll ps _).1 ((Trie.contains_iff ht).2 ⟨s, hhome.isState, rfl⟩)
  · exact fun v hv hp => hhome.longest v ((contains_addAll ps v).2 (.inr hp)) hv

/-- With `he` and `she` the state of `she` has no edge on `h`, and neither has that of `he` to which
it fails. The climb goes on to the root, and the entry is the state of `h`. -/
theorem transitions_addAll_heShe :
    let t := (({} : Builder).addAll [[104, 101], [115, 104, 101]]).trie
    t.Climbs t.failLinks 104 6 2 ∧ t.IsHome (t.pathTo 6 ++ [104]) 2 ∧ t.pathTo 2 = [104] := by
  intro t
  have htable := (transitions_addAll [[104, 101], [115, 104, 101]]).1
  have hstate : t.IsState 6 := ⟨by decide, by decide +kernel⟩
  have hrow : 6 < (t.rows t.failLinks).size := htable.size.symm ▸ hstate.2
  have hentry : (t.rows t.failLinks)[6].get ⟨(104 : UInt8).toNat, UInt8.toNat_lt _⟩ = 2 := by
    rw [Trie.getElem_rows hrow]
    decide +kernel
  have hhome := htable.home 6 hrow 104 hstate
  rw [hentry] at hhome
  exact ⟨(htable.climbs 6 hrow 104 2).2 hentry, hhome, by decide +kernel⟩

end Builder

end PatternScan

import PatternScan.Proofs.Trie.Search
import PatternScan.Proofs.Trie.Table

/-!
# The chains of dictionary links

`Trie.Follows` reads an array of links from a state on until it meets the sentinel.
`Trie.IsDictionary` says what such a reading of the dictionary links has to visit: the ends of the
patterns that are proper suffixes of a state's string, the longest first. `dictionary_addAll` proves
it of every builder's trie, and that the first of them is the nearest accepting state on the failure
chain.
-/

namespace PatternScan

namespace Trie

variable {t : Trie} {ps : List Pattern} {s u v : StateId} {us : List StateId}

/-- From `u` on the links lead through the states `us` to the sentinel. Every link that is read is
in the array. -/
inductive Follows (link : Array StateId) : StateId → List StateId → Prop
  | done : Follows link StateId.sentinel []
  | next {u v : StateId} {us : List StateId} (hne : u ≠ StateId.sentinel)
      (hv : link[u]? = some v) (rest : Follows link v us) : Follows link u (u :: us)

/-- The dictionary links of a trie whose failure links are `fail`, for the patterns `ps`. -/
structure IsDictionary (t : Trie) (ps : List Pattern) (fail link : Array StateId) : Prop where
  /-- The links behind a state lead through the ends of the patterns that are proper suffixes of
  its string, and through no other state; each is visited once, as the lengths decrease. -/
  chain : ∀ s, s < t.size → ∃ u us, link[s]? = some u ∧ Follows link u us ∧
    (∀ v, v ∈ us ↔ ∃ p ∈ ps, t.follow? StateId.root p = some v ∧
      p <:+ t.pathTo s ∧ p ≠ t.pathTo s) ∧
    us.Pairwise fun v v' => (t.pathTo v').length < (t.pathTo v).length
  /-- The link of a state leads to the nearest accepting state on its failure chain, and to the
  sentinel if there is none. -/
  nearest : ∀ s, s < t.size → ∃ f fs, fail[s]? = some f ∧ Follows fail f fs ∧
    link[s]? = some ((fs.find? fun v => (t.node v).accepting).getD StateId.sentinel)

/-! ## Reading the links -/

theorem getElem?_of_lt_size {link : Array StateId} (hs : s < link.size) :
    link[s]? = some (link.getD s StateId.sentinel) := by
  rw [Array.getD_eq_getD_getElem?, Array.getElem?_eq_getElem hs, Option.getD_some]

@[simp] theorem pathTo_sentinel (t : Trie) : t.pathTo StateId.sentinel = [] := by
  unfold pathTo pathOnto
  rw [dif_neg fun h => Nat.not_lt_zero _ h.1]

theorem getElem?_dictLinks (ht : t.Linked) (hs : s < t.size) :
    (t.dictLinks t.failLinks)[s]? =
      some ((t.dictLinks t.failLinks).getD s StateId.sentinel) :=
  getElem?_of_lt_size ((dictInv_dictLinks ht).size.symm ▸ hs)

theorem getElem?_failLinks_sentinel (ht : t.Linked) :
    t.failLinks[StateId.sentinel]? = some StateId.sentinel := by
  have hsize : StateId.sentinel < t.failLinks.size :=
    (failInv_failLinks ht).size.symm ▸ Nat.lt_of_succ_lt ht.two_le_size
  rw [getElem?_of_lt_size hsize, getD_failLinks_sentinel ht]

/-- A chain of the compiled automaton is read off the dictionary links. -/
theorem follows_of_chain (ht : t.Linked) (h : t.compile.Chain u us) :
    Follows (t.dictLinks t.failLinks) u us := by
  induction h with
  | nil => exact .done
  | cons hne hlt _ ih =>
    rw [size_compile] at hlt
    rw [cell_compile hlt] at ih
    exact .next hne (getElem?_dictLinks ht hlt) ih

/-- The dictionary links behind a state lead through the ends of the proper suffixes of its path. -/
theorem follows_dictLinks (ht : t.Linked) (hroot : (t.node StateId.root).accepting = false)
    (hs : s < t.size) : Follows (t.dictLinks t.failLinks)
      ((t.dictLinks t.failLinks).getD s StateId.sentinel) (t.ends (t.pathTo s).tail) := by
  rcases eq_sentinel_or_isState hs with rfl | hstate
  · rw [getD_dictLinks_sentinel ht, pathTo_sentinel]
    exact .done
  · have hchain := chain_compile ht hroot hstate
    rw [cell_compile hs] at hchain
    exact follows_of_chain ht hchain

/-- **The failure chain of a state** ends, and the dictionary link leads to the first accepting
state on it. By the depth of the state: the chain goes on from its fallback, which is shallower. -/
theorem exists_follows_failLinks (ht : t.Linked) (hs : t.IsState s) :
    ∃ fs, Follows t.failLinks (t.fallback s) fs ∧
      (t.dictLinks t.failLinks).getD s StateId.sentinel =
        (fs.find? fun v => (t.node v).accepting).getD StateId.sentinel := by
  induction hd : (t.pathTo s).length using Nat.strongRecOn generalizing s with
  | ind d ih =>
    subst hd
    by_cases hr : s = StateId.root
    · rw [hr, fallback_root, getD_dictLinks_root ht]
      exact ⟨[], .done, rfl⟩
    · have hf := isState_fallback ht hr
      obtain ⟨fs, hfs, hlink⟩ := ih _ (length_pathTo_fallback_lt ht hs hr) hf rfl
      refine ⟨t.fallback s :: fs, .next (Nat.ne_of_gt hf.1) (getElem?_failLinks ht hf) hfs, ?_⟩
      rw [getD_dictLinks ht hs hr, hlink, List.find?_cons]
      cases (t.node (t.fallback s)).accepting <;> rfl

/-! ## The patterns on a chain -/

theorem suffix_tail_iff {α : Type} {v w : List α} (hv : v ≠ []) :
    v <:+ w.tail ↔ v <:+ w ∧ v ≠ w := by
  cases w with
  | nil => simp [hv]
  | cons c w =>
    rw [List.tail_cons, List.suffix_cons_iff]
    constructor
    · intro h
      refine ⟨.inr h, fun heq => ?_⟩
      have := h.length_le
      rw [heq, List.length_cons] at this
      exact Nat.not_succ_le_self _ this
    · rintro ⟨heq | h, hne⟩
      · exact absurd heq hne
      · exact h

/-- The ends of the proper suffixes of a string are those of the patterns among them. -/
theorem Holds.mem_ends_tail (ht : t.Holds ps) (hps : [] ∉ ps) {w : Pattern} :
    v ∈ t.ends w.tail ↔
      ∃ p ∈ ps, t.follow? StateId.root p = some v ∧ p <:+ w ∧ p ≠ w := by
  rw [mem_ends ht.linked]
  constructor
  · rintro ⟨hv, hne, hsuffix, hlen⟩
    have hmem : t.pathTo v ∈ ps := by
      by_contra hmem
      rw [ht.marked.len v hv, if_neg hmem] at hlen
      exact Nat.lt_irrefl 0 hlen
    exact ⟨_, hmem, follow?_pathTo ht.linked hv, (suffix_tail_iff hne).1 hsuffix⟩
  · rintro ⟨p, hp, hfollow, hsuffix⟩
    obtain ⟨hv, rfl⟩ := (follow?_eq_some_iff ht.linked).1 hfollow
    have hne : t.pathTo v ≠ [] := fun h => hps (h ▸ hp)
    refine ⟨hv, hne, (suffix_tail_iff hne).2 hsuffix, ?_⟩
    rw [ht.marked.len v hv, if_pos hp]
    exact List.length_pos_iff.2 hne

/-- **The dictionary links** of a trie that holds patterns. -/
theorem Holds.isDictionary_dictLinks (ht : t.Holds ps) (hps : [] ∉ ps) :
    t.IsDictionary ps t.failLinks (t.dictLinks t.failLinks) where
  chain s hs := by
    have hroot := ht.accepting_root hps
    exact ⟨_, _, getElem?_dictLinks ht.linked hs, follows_dictLinks ht.linked hroot hs,
      fun v => ht.mem_ends_tail hps, pairwise_ends ht.linked _⟩
  nearest s hs := by
    rw [getElem?_dictLinks ht.linked hs]
    rcases eq_sentinel_or_isState hs with rfl | hstate
    · rw [getD_dictLinks_sentinel ht.linked]
      exact ⟨_, [], getElem?_failLinks_sentinel ht.linked, .done, rfl⟩
    · obtain ⟨fs, hfs, hlink⟩ := exists_follows_failLinks ht.linked hstate
      rw [hlink]
      exact ⟨_, fs, getElem?_failLinks ht.linked hstate, hfs, rfl⟩

end Trie

namespace Builder

/-- **The dictionary links of a builder's trie** lead from every state through the ends of the added
patterns that are proper suffixes of its string, the longest first, and the first of them is the
nearest accepting state on the failure chain. -/
theorem dictionary_addAll (ps : List Pattern) :
    let t := (({} : Builder).addAll ps).trie
    t.IsDictionary (numbered ps) t.failLinks (t.dictLinks t.failLinks) :=
  (collects_addAll ps).holds.isDictionary_dictLinks (not_nil_mem_numbered ps)

/-- With `c`, `bcd` and `abc` no pattern ends at `bc`, to which `abc` fails. So `abc` inherits the
link of `bc`, and its chain consists of `c`. -/
theorem dictionary_addAll_inherited :
    let ps : List Pattern := [[99], [98, 99, 100], [97, 98, 99]]
    let t := (({} : Builder).addAll ps).trie
    let link := t.dictLinks t.failLinks
    t.pathTo 8 = [97, 98, 99] ∧ t.failLinks[8]? = some 4 ∧ (t.node 4).accepting = false ∧
      link[8]? = some 2 ∧ Trie.Follows link 2 [2] ∧
      ∀ v, v ∈ [2] ↔ ∃ p ∈ numbered ps, t.follow? StateId.root p = some v ∧
        p <:+ t.pathTo 8 ∧ p ≠ t.pathTo 8 := by
  intro ps t link
  have hlink : link[8]? = some 2 ∧ link[2]? = some StateId.sentinel := by decide +kernel
  obtain ⟨u, us, hu, hfollows, hmem, -⟩ := (dictionary_addAll ps).chain 8 (by decide +kernel)
  obtain rfl : 2 = u := Option.some.inj (hlink.1.symm.trans hu)
  obtain rfl : us = [2] := by
    cases hfollows with
    | next hne hv rest =>
      obtain rfl := Option.some.inj (hlink.2.symm.trans hv)
      cases rest with
      | done => rfl
      | next hne => exact absurd rfl hne
  exact ⟨by decide +kernel, by decide +kernel, by decide +kernel, hlink.1, hfollows, hmem⟩

end Builder

end PatternScan

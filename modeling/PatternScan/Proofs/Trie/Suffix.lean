import PatternScan.Proofs.Trie.Insertion

/-!
# The longest suffix in a trie

`Trie.home` is the state of the longest suffix of a string that the trie spells. `home_append` is
the step of the automaton: the longest suffix of a longer string only depends on the longest suffix
of the shorter one and the last byte.
-/

namespace PatternScan.Trie

variable {t : Trie}

/-- The state that spells the longest suffix of a string that the trie spells. -/
def home (t : Trie) : Pattern → StateId
  | [] => StateId.root
  | c :: w => (t.follow? StateId.root (c :: w)).getD (t.home w)

theorem home_of_follow? {w : Pattern} {s : StateId} (h : t.follow? StateId.root w = some s) :
    t.home w = s := by
  cases w with
  | nil => exact Option.some.inj h
  | cons c w => rw [home, h, Option.getD_some]

theorem home_cons_of_not_contains {c : UInt8} {w : Pattern} (h : ¬ t.Contains (c :: w)) :
    t.home (c :: w) = t.home w := by
  rw [home, Option.not_isSome_iff_eq_none.1 h, Option.getD_none]

/-- The home of a string is a state whose path is a suffix of the string. -/
theorem home_spec (ht : t.Linked) (w : Pattern) :
    t.IsState (t.home w) ∧ t.pathTo (t.home w) <:+ w := by
  induction w with
  | nil =>
    have hroot : t.pathTo (t.home []) = [] := by simp [home]
    exact ⟨isState_root ht, List.suffix_nil.2 hroot⟩
  | cons c w ih =>
    by_cases h : t.Contains (c :: w)
    · obtain ⟨s, hs⟩ := Option.isSome_iff_exists.1 h
      obtain ⟨hstate, hpath⟩ := (follow?_eq_some_iff ht).1 hs
      rw [home_of_follow? hs, hpath]
      exact ⟨hstate, List.suffix_rfl⟩
    · rw [home_cons_of_not_contains h]
      exact ⟨ih.1, ih.2.trans (List.suffix_cons c w)⟩

theorem isState_home (ht : t.Linked) (w : Pattern) : t.IsState (t.home w) :=
  (home_spec ht w).1

theorem length_pathTo_home_le (ht : t.Linked) (w : Pattern) :
    (t.pathTo (t.home w)).length ≤ w.length :=
  (home_spec ht w).2.length_le

/-- **The longest suffix in the trie is the longest**: every suffix in the trie is one of it. -/
theorem suffix_pathTo_home (ht : t.Linked) {v w : Pattern} (hv : t.Contains v) (hvw : v <:+ w) :
    v <:+ t.pathTo (t.home w) := by
  induction w with
  | nil =>
    rw [List.suffix_nil.1 hvw]
    exact List.nil_suffix
  | cons c w ih =>
    by_cases h : t.Contains (c :: w)
    · obtain ⟨s, hs⟩ := Option.isSome_iff_exists.1 h
      rwa [home_of_follow? hs, ((follow?_eq_some_iff ht).1 hs).2]
    · rw [home_cons_of_not_contains h]
      rcases List.suffix_cons_iff.1 hvw with rfl | hvw
      · exact absurd hv h
      · exact ih hvw

/-- **The step of the automaton**: the home of a string followed by a byte is that of the path of
its home followed by the byte. -/
theorem home_append (ht : t.Linked) (w : Pattern) (c : UInt8) :
    t.home (w ++ [c]) = t.home (t.pathTo (t.home w) ++ [c]) := by
  induction w with
  | nil => simp [home]
  | cons d w ih =>
    by_cases h : t.Contains (d :: w)
    · obtain ⟨s, hs⟩ := Option.isSome_iff_exists.1 h
      rw [home_of_follow? hs, ((follow?_eq_some_iff ht).1 hs).2]
    · have h' : ¬ t.Contains (d :: (w ++ [c])) := fun hc => h (Contains.of_append hc)
      rw [List.cons_append, home_cons_of_not_contains h', home_cons_of_not_contains h, ih]

theorem home_append_of_child? (ht : t.Linked) {s u : StateId} {c : UInt8} (hs : t.IsState s)
    (h : t.child? s c = some u) : t.home (t.pathTo s ++ [c]) = u := by
  apply home_of_follow?
  rw [follow?_append, follow?_pathTo ht hs, Option.bind_some, follow?_singleton, h]

theorem not_contains_append (ht : t.Linked) {s : StateId} {c : UInt8} (hs : t.IsState s)
    (h : t.child? s c = none) : ¬ t.Contains (t.pathTo s ++ [c]) := by
  unfold Contains
  rw [follow?_append, follow?_pathTo ht hs, Option.bind_some, follow?_singleton, h]
  exact Bool.false_ne_true

/-! ## Falling back -/

/-- Where the failure chain leads on from a state: to the longest proper suffix of its path. It ends
behind the root. -/
def fallback (t : Trie) (s : StateId) : StateId :=
  if s = StateId.root then StateId.sentinel else t.home (t.pathTo s).tail

@[simp] theorem fallback_root (t : Trie) : t.fallback StateId.root = StateId.sentinel := if_pos rfl

variable {s : StateId}

theorem isState_fallback (ht : t.Linked) (hr : s ≠ StateId.root) : t.IsState (t.fallback s) := by
  unfold fallback
  rw [if_neg hr]
  exact isState_home ht _

theorem pathTo_ne_nil (ht : t.Linked) (hs : t.IsState s) (hr : s ≠ StateId.root) :
    t.pathTo s ≠ [] := fun h =>
  hr (pathTo_injective ht hs (isState_root ht) (h.trans (pathTo_root t).symm))

theorem length_pathTo_fallback_lt (ht : t.Linked) (hs : t.IsState s) (hr : s ≠ StateId.root) :
    (t.pathTo (t.fallback s)).length < (t.pathTo s).length := by
  have hpos := List.length_pos_iff.2 (pathTo_ne_nil ht hs hr)
  have := length_pathTo_home_le ht (t.pathTo s).tail
  rw [List.length_tail] at this
  unfold fallback
  rw [if_neg hr]
  omega

/-- A state without an edge on a byte goes where its fallback goes. -/
theorem home_append_of_fallback (ht : t.Linked) (hs : t.IsState s) (hr : s ≠ StateId.root)
    {c : UInt8} (h : t.child? s c = none) :
    t.home (t.pathTo s ++ [c]) = t.home (t.pathTo (t.fallback s) ++ [c]) := by
  have hnot := not_contains_append ht hs h
  unfold fallback
  rw [if_neg hr, ← home_append ht]
  cases hp : t.pathTo s with
  | nil => exact absurd hp (pathTo_ne_nil ht hs hr)
  | cons d w =>
    rw [hp] at hnot
    exact home_cons_of_not_contains hnot

theorem home_singleton_of_none (ht : t.Linked) {c : UInt8} (h : t.child? StateId.root c = none) :
    t.home [c] = StateId.root := by
  have hnot := not_contains_append ht (isState_root ht) h
  rw [pathTo_root] at hnot
  exact home_cons_of_not_contains hnot

end PatternScan.Trie

import PatternScan.Container.Check
import PatternScan.Proofs.Container.Depths

/-!
# What the check of a table establishes

`Automaton.Sound` states the conditions on a table from outside without the searches that check
them: those on single cells and links (`Automaton.Regular`), and one on the lengths of matches, in
which the depth of a state is its distance from the root. `defect?_eq_none_iff` says that the check
finds no defect in exactly the tables that satisfy the conditions.
-/

namespace PatternScan.Automaton

/-- The conditions on single cells and links, under which every walk comes to an end. -/
structure Regular (a : Automaton) : Prop where
  target : ∀ s, s < a.size → ∀ c,
    (a.cell s).step c ≠ StateId.sentinel ∧ (a.cell s).step c < a.size
  reserved : ∀ s, s = StateId.sentinel ∨ s = StateId.root →
    (a.cell s).len = 0 ∧ (a.cell s).link = StateId.sentinel
  link : ∀ s, s < a.size → (a.cell s).link ≠ StateId.sentinel →
    (a.cell s).link < a.size ∧ 0 < (a.cell (a.cell s).link).len ∧
      (0 < (a.cell s).len → (a.cell (a.cell s).link).len < (a.cell s).len)

/-- The conditions under which scans are safe: besides, no match is longer than the shortest way to
the state in which it is reported. -/
structure Sound (a : Automaton) : Prop extends a.Regular where
  length : ∀ s d, a.Distance s d → (a.cell s).len ≤ d ∧
    ((a.cell s).link ≠ StateId.sentinel → (a.cell (a.cell s).link).len ≤ d)

variable {a : Automaton}

theorem Regular.closed (h : a.Regular) (hsize : StateId.root < a.size) : a.Closed :=
  ⟨hsize, fun s hs c => (h.target s hs c).2⟩

/-! ## The single checks -/

theorem badByte?_eq_none_iff {cell : Cell} : a.badByte? cell = none ↔
    ∀ c, cell.step c ≠ StateId.sentinel ∧ cell.step c < a.size := by
  have hbad : ∀ t : StateId, (decide (t = StateId.sentinel) || decide (a.size ≤ t)) = false ↔
      t ≠ StateId.sentinel ∧ t < a.size := by
    intro t
    rw [Bool.or_eq_false_iff, decide_eq_false_iff_not, decide_eq_false_iff_not, Nat.not_le]
  unfold badByte?
  rw [Array.findIdx?_eq_none_iff]
  constructor
  · intro h c
    exact (hbad _).1 (h _ (Array.mem_toList_iff.1 (mem_next.2 ⟨c, rfl⟩)))
  · intro h t ht
    obtain ⟨c, rfl⟩ := mem_next.1 (Array.mem_toList_iff.2 ht)
    exact (hbad _).2 (h c)

theorem badTarget?_eq_none_iff : a.badTarget? = none ↔
    ∀ s, s < a.size → ∀ c, (a.cell s).step c ≠ StateId.sentinel ∧ (a.cell s).step c < a.size := by
  constructor
  · intro h s hs
    rw [← badByte?_eq_none_iff, cell_of_lt hs]
    unfold badTarget? at h
    cases hfind : a.cells.findIdx? fun cell => (a.badByte? cell).isSome with
    | none =>
      have := Array.findIdx?_eq_none_iff.1 hfind _ (Array.getElem_mem hs)
      exact Option.not_isSome_iff_eq_none.1 (Bool.eq_false_iff.1 this)
    | some u =>
      -- the byte that made the search stop is found again
      obtain ⟨hu, hbad, -⟩ := Array.findIdx?_eq_some_iff_getElem.1 hfind
      obtain ⟨byte, hbyte⟩ := Option.isSome_iff_exists.1 hbad
      rw [hfind] at h
      simp only [Option.bind_eq_bind, Option.bind_some, cell_of_lt hu, hbyte] at h
      exact nomatch h
  · intro h
    have hnone : (a.cells.findIdx? fun cell => (a.badByte? cell).isSome) = none := by
      rw [Array.findIdx?_eq_none_iff]
      intro cell hcell
      obtain ⟨s, hs, rfl⟩ := Array.mem_iff_getElem.1 hcell
      rw [← cell_of_lt hs, badByte?_eq_none_iff.2 (h s hs)]
      rfl
    unfold badTarget?
    rw [hnone]
    rfl

theorem badReserved?_eq_none_iff : a.badReserved? = none ↔
    ∀ s, s = StateId.sentinel ∨ s = StateId.root →
      (a.cell s).len = 0 ∧ (a.cell s).link = StateId.sentinel := by
  simp only [badReserved?, Option.map_eq_none_iff, List.find?_eq_none, List.mem_cons,
    List.not_mem_nil, or_false, Bool.or_eq_true, decide_eq_true_eq, not_or, not_not]

theorem linkDefect?_eq_none_iff {s : StateId} {cell : Cell} : a.linkDefect? s cell = none ↔
    (cell.link ≠ StateId.sentinel → cell.link < a.size ∧ 0 < (a.cell cell.link).len ∧
      (0 < cell.len → (a.cell cell.link).len < cell.len)) := by
  unfold linkDefect?
  split
  · rename_i h
    exact iff_of_true rfl fun hne => absurd h hne
  · rename_i hne
    simp only [hne, ne_eq, not_false_eq_true, true_implies]
    split
    · rename_i h
      simp only [Bool.or_eq_true, decide_eq_true_eq] at h
      refine iff_of_false (by simp) fun ⟨hlt, hpos, _⟩ => ?_
      rcases h with h | h
      · exact Nat.not_lt.2 h hlt
      · omega
    · rename_i h
      simp only [Bool.or_eq_true, decide_eq_true_eq, not_or, Nat.not_le] at h
      split
      · rename_i hle
        simp only [Bool.and_eq_true, decide_eq_true_eq, decide_not, Bool.not_eq_eq_eq_not,
          Bool.not_true, decide_eq_false_iff_not] at hle
        exact iff_of_false (by simp) fun ⟨_, _, hlt⟩ => by omega
      · rename_i hle
        simp only [Bool.and_eq_true, decide_eq_true_eq, decide_not, Bool.not_eq_eq_eq_not,
          Bool.not_true, decide_eq_false_iff_not] at hle
        exact iff_of_true rfl ⟨h.1, Nat.pos_of_ne_zero h.2, fun hpos => by omega⟩

theorem badLink?_eq_none_iff : a.badLink? = none ↔
    ∀ s, s < a.size → (a.cell s).link ≠ StateId.sentinel →
      (a.cell s).link < a.size ∧ 0 < (a.cell (a.cell s).link).len ∧
        (0 < (a.cell s).len → (a.cell (a.cell s).link).len < (a.cell s).len) := by
  simp only [badLink?, List.findSome?_eq_none_iff, List.mem_range, linkDefect?_eq_none_iff]

theorem longestMatch_le_iff {cell : Cell} {d : Nat} : a.longestMatch cell ≤ d ↔
    cell.len ≤ d ∧ (cell.link ≠ StateId.sentinel → (a.cell cell.link).len ≤ d) := by
  unfold longestMatch
  rw [Nat.max_le]
  split
  · rename_i h
    simp [h]
  · rename_i h
    simp [h]

theorem regular_iff : a.Regular ↔
    a.badTarget? = none ∧ a.badReserved? = none ∧ a.badLink? = none := by
  rw [badTarget?_eq_none_iff, badReserved?_eq_none_iff, badLink?_eq_none_iff]
  exact ⟨fun h => ⟨h.target, h.reserved, h.link⟩, fun ⟨ht, hr, hl⟩ => ⟨ht, hr, hl⟩⟩

theorem getD_depths (ha : a.Closed) {s : StateId} {d : Nat} :
    a.depths.getD s none = some d ↔ a.Distance s d := by
  rw [← getElem?_depths ha, Array.getD_eq_getD_getElem?]
  cases a.depths[s]? <;> simp

/-- The check of the lengths compares them with the distances. -/
theorem badLength?_eq_none_iff (ha : a.Closed) : a.badLength? = none ↔
    ∀ s d, a.Distance s d → (a.cell s).len ≤ d ∧
      ((a.cell s).link ≠ StateId.sentinel → (a.cell (a.cell s).link).len ≤ d) := by
  have hdepth : ∀ s d, a.depths.getD s none = some d ↔ a.Distance s d := fun _ _ => getD_depths ha
  simp only [badLength?, List.findSome?_eq_none_iff, List.mem_range, ← longestMatch_le_iff]
  constructor
  · intro h s d hd
    have := h s (hd.lt_size ha)
    rw [(hdepth s d).2 hd] at this
    refine Nat.not_lt.1 fun hlt => ?_
    rw [Option.bind_eq_bind, Option.bind_some, if_pos hlt] at this
    exact nomatch this
  · intro h s hs
    cases hd : a.depths.getD s none with
    | none => rfl
    | some d =>
      rw [Option.bind_eq_bind, Option.bind_some,
        if_neg (Nat.not_lt.2 (h s d ((hdepth s d).1 hd)))]

/-! ## All of them -/

/-- **The check accepts exactly the sound tables**, among those that have a root. -/
theorem defect?_eq_none_iff (hsize : StateId.root < a.size) : a.defect? = none ↔ a.Sound := by
  have hparts : a.defect? = none ↔ (a.badTarget? = none ∧ a.badReserved? = none) ∧
      a.badLink? = none ∧ a.badLength? = none := by
    unfold defect?
    cases a.badTarget? <;> cases a.badReserved? <;> cases a.badLink? <;> simp
  rw [hparts]
  constructor
  · rintro ⟨⟨htarget, hreserved⟩, hlink, hlength⟩
    have h := regular_iff.2 ⟨htarget, hreserved, hlink⟩
    have hlength := (badLength?_eq_none_iff (h.closed hsize)).1 hlength
    exact ⟨h, hlength⟩
  · intro h
    obtain ⟨htarget, hreserved, hlink⟩ := regular_iff.1 h.toRegular
    exact ⟨⟨htarget, hreserved⟩, hlink, (badLength?_eq_none_iff (h.closed hsize)).2 h.length⟩

end PatternScan.Automaton

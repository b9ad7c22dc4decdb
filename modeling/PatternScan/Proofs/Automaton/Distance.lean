import Mathlib.Data.Fintype.Card
import PatternScan.Proofs.Automaton.Trace

/-!
# Distances in a table

The distance of a state is the length of the shortest byte string that leads to it from the root.
In a table whose rows stay inside it every state that is reached has a distance, and this is smaller
than the number of states.
-/

namespace PatternScan.Automaton

variable {a : Automaton}

/-- The table has a root, and no row leads out of it. -/
structure Closed (a : Automaton) : Prop where
  root_lt_size : StateId.root < a.size
  step_lt_size : ∀ s, s < a.size → ∀ c, (a.cell s).step c < a.size

theorem Closed.after_lt_size (ha : a.Closed) (w : List UInt8) : a.after w < a.size := by
  induction w using List.reverseRecOn with
  | nil => exact ha.root_lt_size
  | append_singleton w c ih =>
    rw [after_append_singleton]
    exact ha.step_lt_size _ ih c

/-- The shortest byte strings that lead from the root to `s` have length `d`. -/
structure Distance (a : Automaton) (s : StateId) (d : Nat) : Prop where
  exists_after : ∃ w, w.length = d ∧ a.after w = s
  le_length : ∀ w, a.after w = s → d ≤ w.length

namespace Distance

variable {s : StateId} {d : Nat}

theorem unique {d' : Nat} (h : a.Distance s d) (h' : a.Distance s d') : d = d' := by
  obtain ⟨w, rfl, hw⟩ := h.exists_after
  obtain ⟨w', rfl, hw'⟩ := h'.exists_after
  exact Nat.le_antisymm (h.le_length w' hw') (h'.le_length w hw)

theorem lt_size (ha : a.Closed) (h : a.Distance s d) : s < a.size := by
  obtain ⟨w, -, rfl⟩ := h.exists_after
  exact ha.after_lt_size w

/-- What a string leads to has a distance, which is at most its length. -/
theorem of_after (a : Automaton) (w : List UInt8) : ∃ d ≤ w.length, a.Distance (a.after w) d := by
  induction hn : w.length using Nat.strongRecOn generalizing w with
  | ind n ih =>
    subst hn
    by_cases h : ∃ v, a.after v = a.after w ∧ v.length < w.length
    · obtain ⟨v, hv, hlt⟩ := h
      obtain ⟨d, hd, hdist⟩ := ih _ hlt v rfl
      exact ⟨d, Nat.le_trans hd (Nat.le_of_lt hlt), hv ▸ hdist⟩
    · refine ⟨w.length, Nat.le_refl _, ⟨w, rfl, rfl⟩, fun v hv => Nat.not_lt.1 fun hlt => ?_⟩
      exact h ⟨v, hv, hlt⟩

theorem zero_iff : a.Distance s 0 ↔ s = StateId.root := by
  constructor
  · intro h
    obtain ⟨w, hw, rfl⟩ := h.exists_after
    rw [List.length_eq_zero_iff.1 hw, after_nil]
  · rintro rfl
    exact ⟨⟨[], rfl, rfl⟩, fun _ _ => Nat.zero_le _⟩

/-- A state at positive distance is a step from one that is a byte closer. -/
theorem exists_pred (h : a.Distance s (d + 1)) :
    ∃ u c, a.Distance u d ∧ (a.cell u).step c = s := by
  obtain ⟨w, hw, rfl⟩ := h.exists_after
  rcases List.eq_nil_or_concat w with rfl | ⟨v, c, rfl⟩
  · exact nomatch hw
  · rw [List.concat_eq_append] at hw h ⊢
    rw [List.length_append] at hw
    refine ⟨a.after v, c, ⟨⟨v, Nat.succ.inj hw, rfl⟩, fun v' hv' => ?_⟩,
      (after_append_singleton a v c).symm⟩
    -- a shorter way to the predecessor would be a shorter way to the state
    have := h.le_length (v' ++ [c]) (by rw [after_append_singleton, hv', after_append_singleton])
    rw [List.length_append] at this
    exact Nat.le_of_succ_le_succ this

theorem step_le {u : StateId} (h : a.Distance u d) (c : UInt8)
    {d' : Nat} (h' : a.Distance ((a.cell u).step c) d') : d' ≤ d + 1 := by
  obtain ⟨w, rfl, rfl⟩ := h.exists_after
  have := h'.le_length (w ++ [c]) (after_append_singleton a w c)
  rwa [List.length_append] at this

/-- On the way to a state there is one at every smaller distance. -/
theorem exists_of_le (h : a.Distance s d) {k : Nat} (hk : k ≤ d) : ∃ u, a.Distance u k := by
  induction d generalizing s with
  | zero => exact ⟨s, Nat.le_zero.1 hk ▸ h⟩
  | succ d ih =>
    rcases Nat.le_succ_iff.1 hk with hk | rfl
    · obtain ⟨u, c, hu, -⟩ := h.exists_pred
      exact ih hu hk
    · exact ⟨s, h⟩

/-- **Distances are smaller than the number of states**, as the states on a shortest way differ. -/
theorem lt_of_closed (ha : a.Closed) (h : a.Distance s d) : d < a.size := by
  choose way hway using fun k : Fin (d + 1) => h.exists_of_le (Nat.le_of_lt_succ k.isLt)
  have hinj : Function.Injective fun k => (⟨way k, (hway k).lt_size ha⟩ : Fin a.size) := by
    intro k k' heq
    have hstate : way k = way k' := congrArg Fin.val heq
    exact Fin.ext ((hway k).unique (hstate ▸ hway k'))
  have hcard := Fintype.card_le_of_injective _ hinj
  rwa [Fintype.card_fin, Fintype.card_fin] at hcard

end Distance

end PatternScan.Automaton

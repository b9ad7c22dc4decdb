import PatternScan.Path

/-!
# The order of paths

Components are compared by their kinds first and by their names then, which is a linear order, and
paths are compared like words over components. So `Path.compare` orders paths linearly up to the way
they are written: any two can be compared (`isLE_total`), comparing is transitive (`isLE_trans`),
and two texts compare as equal exactly if they are the same path (`compare_eq_eq_iff`).
-/

namespace PatternScan.Path

namespace Component

/-- The name of a component, empty for those that have none. -/
def text : Component → String
  | name s => s
  | _ => ""

theorem compare_eq_compareLex :
    compare = compareLex (compareOn rank) (compareOn text) := by
  funext a b
  cases a <;> cases b <;> rfl

theorem eq_of_rank_of_text : ∀ {a b : Component}, a.rank = b.rank → a.text = b.text → a = b
  | root, root, _, _ => rfl
  | here, here, _, _ => rfl
  | up, up, _, _ => rfl
  | name _, name _, _, h => congrArg name h

instance : Std.TransCmp compare := by
  rw [compare_eq_compareLex]
  infer_instance

instance : Std.LawfulEqCmp compare where
  eq_of_compare {a b} h := by
    rw [compare_eq_compareLex, compareLex_eq_eq] at h
    exact eq_of_rank_of_text (Std.LawfulEqOrd.eq_of_compare h.1) (Std.LawfulEqOrd.eq_of_compare h.2)

end Component

theorem compareComponents_eq_compareLex :
    compareComponents = List.compareLex Component.compare := by
  funext as bs
  induction as generalizing bs with
  | nil => cases bs <;> rfl
  | cons a as ih =>
    cases bs with
    | nil => rfl
    | cons b bs =>
      rw [compareComponents, List.compareLex, ih]
      cases a.compare b <;> rfl

variable {a b c : String}

theorem isLE_trans (hab : (compare a b).isLE) (hbc : (compare b c).isLE) :
    (compare a c).isLE := by
  unfold compare at *
  rw [compareComponents_eq_compareLex] at *
  exact Std.TransCmp.isLE_trans hab hbc

theorem compare_eq_swap (a b : String) : compare a b = (compare b a).swap := by
  unfold compare
  rw [compareComponents_eq_compareLex]
  exact Std.OrientedCmp.eq_swap

theorem isLE_total (a b : String) : (compare a b).isLE || (compare b a).isLE := by
  rw [compare_eq_swap a b]
  cases compare b a <;> rfl

/-- **Texts that compare as equal are the same path.** -/
theorem compare_eq_eq_iff : compare a b = .eq ↔ same a b := by
  unfold compare same
  rw [compareComponents_eq_compareLex, Std.LawfulEqCmp.compare_eq_iff_eq, decide_eq_true_eq]

theorem same_refl (a : String) : same a a :=
  decide_eq_true rfl

theorem same_symm (h : same a b) : same b a :=
  decide_eq_true (of_decide_eq_true h).symm

theorem same_trans (h : same a b) (h' : same b c) : same a c :=
  decide_eq_true ((of_decide_eq_true h).trans (of_decide_eq_true h'))

theorem same_of_isLE (hab : (compare a b).isLE) (hba : (compare b a).isLE) : same a b := by
  rw [compare_eq_swap, Ordering.isLE_swap] at hba
  rw [← compare_eq_eq_iff]
  exact Ordering.eq_eq_of_isLE_of_isGE hab hba

end PatternScan.Path

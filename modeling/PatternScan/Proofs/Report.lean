import Mathlib.Data.List.Induction
import PatternScan.Report

/-!
# The totals of a report

`foldl_add` says that a report to which results have been added one by one is the report of the list
of them, whose totals are counted from the results.
-/

namespace PatternScan.Report

theorem add_ofResults (rs : List FileResult) (r : FileResult) :
    (ofResults rs).add r = ofResults (rs ++ [r]) := by
  have hmatched : (if r.found.isEmpty = true then (0 : UInt64) else 1) =
      .ofNat ([r].countP fun f => !f.found.isEmpty) := by
    cases h : r.found.isEmpty <;> simp [h]
  simp only [add, ofResults, List.push_toArray, List.foldl_append, List.foldl_cons, List.foldl_nil,
    List.length_append, List.length_singleton, List.countP_append, UInt64.ofNat_add, hmatched,
    UInt64.ofNat_one]

/-- **Adding results one by one** keeps the totals a recount of the results. -/
theorem foldl_add (rs : List FileResult) : rs.foldl add {} = ofResults rs := by
  induction rs using List.reverseRecOn with
  | nil => rfl
  | append_singleton rs r ih => rw [List.foldl_append, ih, ← add_ofResults]; rfl

end PatternScan.Report

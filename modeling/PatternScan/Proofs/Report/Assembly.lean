import Mathlib.Algebra.GroupWithZero.Nat
import Mathlib.Data.List.Pairwise
import PatternScan.Proofs.Path
import PatternScan.Proofs.Report

/-!
# Putting reports together

Results are distributed over reports, which are merged in any order and nesting and may be sorted on
the way: an `Assembly`. Whatever it is, each report has the totals of its results, and it has the
results that went in, those of one path in the order in which they went in
(`Assembly.exists_report_eq`). For sorting is stable (`Report.filter_mergeSort`). Sorting at the end
leaves no trace of the assembly if no two results have the same path (`Assembly.sorted_report`).
-/

namespace PatternScan

/-- The path of the one does not come behind that of the other. -/
def FileResult.notAfter (f g : FileResult) : Bool :=
  (Path.compare f.path g.path).isLE

namespace Report

/-! ## Totals -/

/-- The totals are those of the results, as long as they fit into 64 bits; a total that does not fit
has wrapped around. -/
structure Counted (r : Report) : Prop where
  total : r.total.toNat = (r.results.toList.map fun f => f.found.size).sum % 2 ^ 64
  searched : r.searched.toNat = r.results.size % 2 ^ 64
  matched : r.matched.toNat = (r.results.toList.countP fun f => !f.found.isEmpty) % 2 ^ 64

theorem ofResults_eq (fs : List FileResult) : ofResults fs =
    { results := fs.toArray
      total := .ofNat (fs.map fun f => f.found.size).sum
      searched := .ofNat fs.length
      matched := .ofNat (fs.countP fun f => !f.found.isEmpty) } := by
  rw [ofResults, List.sum_eq_foldl, List.foldl_map]

theorem counted_ofResults (fs : List FileResult) : (ofResults fs).Counted := by
  rw [ofResults_eq]
  exact ⟨UInt64.toNat_ofNat', by rw [List.size_toArray]; exact UInt64.toNat_ofNat',
    UInt64.toNat_ofNat'⟩

theorem merge_ofResults (fs gs : List FileResult) :
    (ofResults fs).merge (ofResults gs) = ofResults (fs ++ gs) := by
  simp only [ofResults_eq, merge, List.append_toArray, List.map_append, List.sum_append,
    List.length_append, List.countP_append, UInt64.ofNat_add]

theorem sort_ofResults (fs : List FileResult) :
    (ofResults fs).sort = ofResults (fs.mergeSort FileResult.notAfter) := by
  have hperm := List.mergeSort_perm fs FileResult.notAfter
  rw [ofResults_eq, ofResults_eq, (hperm.map _).sum_nat, hperm.length_eq, hperm.countP_eq]
  rfl

/-! ## Sorting by path -/

theorem notAfter_trans (f g h : FileResult) (hfg : f.notAfter g) (hgh : g.notAfter h) :
    f.notAfter h :=
  Path.isLE_trans hfg hgh

theorem notAfter_total (f g : FileResult) : f.notAfter g || g.notAfter f :=
  Path.isLE_total f.path g.path

theorem notAfter_of_same {f g : FileResult} (h : Path.same f.path g.path) : f.notAfter g :=
  Ordering.isLE_of_eq_eq (Path.compare_eq_eq_iff.2 h)

theorem pairwise_mergeSort (fs : List FileResult) :
    (fs.mergeSort FileResult.notAfter).Pairwise fun f g => f.notAfter g :=
  List.pairwise_mergeSort notAfter_trans notAfter_total fs

/-- **Results of one path keep their order** when they are sorted. -/
theorem filter_mergeSort (fs : List FileResult) (path : String) :
    (fs.mergeSort FileResult.notAfter).filter (fun f => Path.same f.path path) =
      fs.filter fun f => Path.same f.path path := by
  have halike : (fs.filter fun f => Path.same f.path path).Pairwise fun f g => f.notAfter g := by
    refine List.pairwise_of_forall_mem_list fun f hf g hg => notAfter_of_same ?_
    exact Path.same_trans (List.mem_filter.1 hf).2 (Path.same_symm (List.mem_filter.1 hg).2)
  have hsub := (List.sublist_mergeSort notAfter_trans notAfter_total halike
    List.filter_sublist).filter fun f => Path.same f.path path
  rw [List.filter_filter] at hsub
  simp only [Bool.and_self] at hsub
  have hlength := ((List.mergeSort_perm fs FileResult.notAfter).filter
    fun f => Path.same f.path path).length_eq
  exact (hsub.eq_of_length hlength.symm).symm

/-- Sorting brings results of different paths into one order. -/
theorem mergeSort_eq_of_perm {fs gs : List FileResult} (h : fs.Perm gs)
    (hpaths : gs.Pairwise fun f g => ¬Path.same f.path g.path) :
    fs.mergeSort FileResult.notAfter = gs.mergeSort FileResult.notAfter := by
  have hfs := List.mergeSort_perm fs FileResult.notAfter
  have hgs := List.mergeSort_perm gs FileResult.notAfter
  refine List.Perm.eq_of_pairwise (fun f g hf hg hfg hgf => ?_) (pairwise_mergeSort fs)
    (pairwise_mergeSort gs) (hfs.trans (h.trans hgs.symm))
  have : Std.Symm fun f g : FileResult => ¬Path.same f.path g.path :=
    ⟨fun _ _ hfg hgf => hfg (Path.same_symm hgf)⟩
  by_contra hne
  exact hpaths.forall (h.subset (hfs.subset hf)) (hgs.subset hg) hne (Path.same_of_isLE hfg hgf)

end Report

/-! ## Assemblies -/

/-- A way in which results are put together to a report. -/
inductive Assembly
  | empty
  | add (a : Assembly) (f : FileResult)
  | merge (a b : Assembly)
  | sort (a : Assembly)

namespace Assembly

/-- The report that is put together. -/
def report : Assembly → Report
  | empty => {}
  | add a f => a.report.add f
  | merge a b => a.report.merge b.report
  | sort a => a.report.sort

/-- The results that go in, from left to right. -/
def results : Assembly → List FileResult
  | empty => []
  | add a f => a.results ++ [f]
  | merge a b => a.results ++ b.results
  | sort a => a.results

/-- **A report keeps the totals of its results**, which are those that went in, and among the
results of one path the order. -/
theorem exists_report_eq (a : Assembly) : ∃ fs, a.report = .ofResults fs ∧ fs.Perm a.results ∧
    ∀ path, (fs.filter fun f => Path.same f.path path) =
      a.results.filter fun f => Path.same f.path path := by
  induction a with
  | empty => exact ⟨[], rfl, .nil, fun _ => rfl⟩
  | add a f ih =>
    obtain ⟨fs, hreport, hperm, hfilter⟩ := ih
    refine ⟨fs ++ [f], ?_, hperm.append_right [f], fun path => ?_⟩
    · rw [report, hreport, Report.add_ofResults]
    · rw [results, List.filter_append, List.filter_append, hfilter]
  | merge a b iha ihb =>
    obtain ⟨fs, hreport, hperm, hfilter⟩ := iha
    obtain ⟨gs, hreport', hperm', hfilter'⟩ := ihb
    refine ⟨fs ++ gs, ?_, hperm.append hperm', fun path => ?_⟩
    · rw [report, hreport, hreport', Report.merge_ofResults]
    · rw [results, List.filter_append, List.filter_append, hfilter, hfilter']
  | sort a ih =>
    obtain ⟨fs, hreport, hperm, hfilter⟩ := ih
    refine ⟨fs.mergeSort FileResult.notAfter, ?_, (List.mergeSort_perm _ _).trans hperm,
      fun path => ?_⟩
    · rw [report, hreport, Report.sort_ofResults]
    · rw [Report.filter_mergeSort, hfilter, results]

/-- **Reports do not depend on how they are put together** once they are sorted. Every report on the
way, and the last one, has the totals of its results. After sorting, the results that went in are in
the order of their paths, those of one path in the order in which they went in; and if all paths
differ, any other assembly of these results gives the same report. -/
theorem sorted_report (a : Assembly) :
    a.report.Counted ∧ a.report.sort.Counted ∧
      a.report.sort.results.toList.Perm a.results ∧
      a.report.sort.results.toList.Pairwise (fun f g => (Path.compare f.path g.path).isLE) ∧
      (∀ path, (a.report.sort.results.toList.filter fun f => Path.same f.path path) =
        a.results.filter fun f => Path.same f.path path) ∧
      ∀ b : Assembly, b.results.Perm a.results →
        a.results.Pairwise (fun f g => ¬Path.same f.path g.path) →
        b.report.sort = a.report.sort := by
  obtain ⟨fs, hreport, hperm, hfilter⟩ := exists_report_eq a
  rw [hreport, Report.sort_ofResults]
  refine ⟨Report.counted_ofResults _, Report.counted_ofResults _,
    (List.mergeSort_perm _ _).trans hperm, Report.pairwise_mergeSort fs,
    fun path => (Report.filter_mergeSort fs path).trans (hfilter path), fun b hb hpaths => ?_⟩
  obtain ⟨gs, hreport', hperm', -⟩ := exists_report_eq b
  have hpaths' : fs.Pairwise fun f g => ¬Path.same f.path g.path :=
    hperm.symm.pairwise hpaths fun hfg hgf => hfg (Path.same_symm hgf)
  rw [hreport', Report.sort_ofResults, Report.mergeSort_eq_of_perm _ hpaths']
  exact hperm'.trans (hb.trans hperm.symm)

/-- Merged or added in turn, and with names whose bytes are in the other order than the paths: a dot
comes before a slash. -/
theorem sorted_report_twoFiles :
    (merge (add empty ⟨"a.c", #[]⟩) (add empty ⟨"a/b", #[⟨0, 1, 0⟩]⟩)).report.sort =
      (add (add empty ⟨"a/b", #[⟨0, 1, 0⟩]⟩) ⟨"a.c", #[]⟩).report.sort := by
  obtain ⟨-, -, -, -, -, hsame⟩ :=
    sorted_report (add (add empty ⟨"a/b", #[⟨0, 1, 0⟩]⟩) ⟨"a.c", #[]⟩)
  exact hsame _ (List.Perm.swap _ _ _) (List.pairwise_pair.2 (by decide +kernel))

end Assembly

end PatternScan

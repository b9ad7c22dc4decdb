import Mathlib.Algebra.GroupWithZero.Nat
import Mathlib.Data.List.Perm.Basic
import PatternScan.Builder
import PatternScan.Proofs.Report
import PatternScan.Scan

/-!
# A scan does not depend on the order of the work

`Scanner.Interleaving` are the orders in which workers can handle the files of some chunks, each
chunk from front to back and the chunks in turns of any kind. Every such order handles each file
once, and for every order that does the outcomes and the counters are the same (`outcomes_run`,
`stats_run_of_perm`): outcomes stand at the places of their files, and counting commutes.
`report_run` says that the report is then the one of `Scanner.sequential`, which handles the files
one after the other.
-/

namespace PatternScan

/-- The file can be read. -/
def SourceFile.readable (f : SourceFile) : Bool :=
  f.content.isOk

namespace Scanner

variable {s : Scanner} {files : Array SourceFile} {order : List Nat}

/-! ## Chunks -/

theorem flatten_chunksOf {α : Type} (k : Nat) (xs : List α) : (chunksOf k xs).flatten = xs := by
  fun_induction chunksOf k xs with
  | case1 => rfl
  | case2 x xs ih => rw [List.flatten_cons, ih, List.cons_append, List.take_append_drop]

/-- The orders in which the elements of some lists can be handled: each step handles the first that
is left of one of the lists. -/
inductive Interleaving {α : Type} : List (List α) → List α → Prop
  | done {chunks : List (List α)} (h : ∀ chunk ∈ chunks, chunk = []) : Interleaving chunks []
  | step {before after : List (List α)} {x : α} {chunk order : List α}
      (h : Interleaving (before ++ chunk :: after) order) :
      Interleaving (before ++ (x :: chunk) :: after) (x :: order)

/-- Every order handles each element once. -/
theorem Interleaving.perm {α : Type} {chunks : List (List α)} {order : List α}
    (h : Interleaving chunks order) : order.Perm chunks.flatten := by
  induction h with
  | done h => rw [List.flatten_eq_nil_iff.2 h]
  | step _ ih =>
    rw [List.flatten_append, List.flatten_cons, List.cons_append] at *
    exact (ih.cons _).trans List.perm_middle.symm

/-- One of the orders takes the chunks one after the other. -/
theorem interleaving_flatten {α : Type} (chunks : List (List α)) :
    Interleaving chunks chunks.flatten := by
  -- in front of the chunk that is handled all chunks are empty
  suffices h : ∀ before : List (List α), (∀ chunk ∈ before, chunk = []) →
      Interleaving (before ++ chunks) chunks.flatten from h [] nofun
  induction chunks with
  | nil =>
    intro before h
    rw [List.append_nil]
    exact .done h
  | cons chunk chunks ih =>
    intro before h
    induction chunk with
    | nil =>
      have hempty : ∀ chunk ∈ before ++ [[]], chunk = [] := by simpa [or_imp, forall_and] using h
      have := ih (before ++ [[]]) hempty
      rwa [List.append_assoc] at this
    | cons x chunk ih' => exact .step ih'

/-! ## One file at a time -/

theorem run_append_singleton (s : Scanner) (files : Array SourceFile) (order : List Nat) (i : Nat) :
    s.run files (order ++ [i]) = s.handle files (s.run files order) i := by
  simp [run]

/-- Handling a file puts its outcome at its place and leaves the others as they are. -/
theorem getElem?_outcomes_handle (s : Scanner) (files : Array SourceFile) (p : Progress)
    (i j : Nat) : (s.handle files p i).outcomes[j]? =
      if i = j then p.outcomes[j]?.map fun outcome =>
        (files[j]?.map s.searchFile).or outcome else p.outcomes[j]? := by
  unfold handle
  cases hf : files[i]? with
  | none =>
    by_cases hij : i = j
    · subst hij
      simp [hf]
    · simp [hij]
  | some f =>
    rw [Array.getElem?_setIfInBounds]
    by_cases hij : i = j
    · subst hij
      by_cases hi : i < p.outcomes.size <;> simp [hf, hi]
    · simp [hij]

/-- After any files have been handled, their outcomes are there, and no others. -/
theorem getElem?_outcomes_run (s : Scanner) (files : Array SourceFile) (order : List Nat)
    (i : Nat) :
    (s.run files order).outcomes[i]? =
      files[i]?.map fun f => if i ∈ order then some (s.searchFile f) else none := by
  induction order using List.reverseRecOn with
  | nil =>
    rw [run, List.foldl_nil, Array.getElem?_replicate]
    by_cases hi : i < files.size <;> simp [hi]
  | append_singleton order j ih =>
    rw [run_append_singleton, getElem?_outcomes_handle, ih]
    cases files[i]? with
    | none => simp
    | some f =>
      by_cases hij : j = i
      · simp [hij]
      · simp [hij, Ne.symm hij]

/-- The counters are those of the files that have been handled, in that order. -/
theorem stats_run (s : Scanner) (files : Array SourceFile) (order : List Nat) :
    (s.run files order).stats = (order.filterMap (files[·]?)).foldl s.count {} := by
  induction order using List.reverseRecOn with
  | nil => rfl
  | append_singleton order i ih =>
    rw [run_append_singleton, List.filterMap_append, List.foldl_append, ← ih, handle]
    cases hf : files[i]? <;> simp [hf]

/-! ## The counters -/

/-- The number of occurrences found in a file. -/
def hits (s : Scanner) (f : SourceFile) : Nat :=
  match f.content with
  | .ok text => (s.search text).size
  | .error _ => 0

/-- Files can be counted in any order. -/
instance (s : Scanner) : RightCommutative s.count where
  right_comm stats f g := by
    unfold count ScanStats.countFile ScanStats.countFailure
    cases f.content <;> cases g.content <;> grind

/-- **Counting a file**: its occurrences, and whether it could be read. -/
theorem count_spec (s : Scanner) (stats : ScanStats) (f : SourceFile) :
    (s.count stats f).found = stats.found + .ofNat (s.hits f) ∧
      (s.count stats f).read + (s.count stats f).mapped =
        stats.read + stats.mapped + (if f.readable then 1 else 0) ∧
      (s.count stats f).failed + (if f.readable then 1 else 0) = stats.failed + 1 := by
  unfold count hits SourceFile.readable ScanStats.countFile ScanStats.countFailure
  cases f.content with
  | ok text =>
    simp only [Except.isOk, Except.toBool, if_true]
    grind
  | error e => simp [Except.isOk, Except.toBool]

/-- **Counting files.** -/
theorem foldl_count_spec (s : Scanner) (fs : List SourceFile) (stats : ScanStats) :
    (fs.foldl s.count stats).found = stats.found + .ofNat (fs.map s.hits).sum ∧
      (fs.foldl s.count stats).read + (fs.foldl s.count stats).mapped =
        stats.read + stats.mapped + .ofNat (fs.countP SourceFile.readable) ∧
      (fs.foldl s.count stats).failed + .ofNat (fs.countP SourceFile.readable) =
        stats.failed + .ofNat fs.length := by
  induction fs generalizing stats with
  | nil => simp
  | cons f fs ih =>
    obtain ⟨hfound, hread, hfailed⟩ := count_spec s stats f
    obtain ⟨ihfound, ihread, ihfailed⟩ := ih (s.count stats f)
    have hcount : UInt64.ofNat ((f :: fs).countP SourceFile.readable) =
        .ofNat (fs.countP SourceFile.readable) + if f.readable then 1 else 0 := by
      rw [List.countP_cons, UInt64.ofNat_add]
      split <;> rfl
    simp only [List.foldl_cons, List.map_cons, List.sum_cons, List.length_cons, UInt64.ofNat_add,
      UInt64.ofNat_one, hcount]
    refine ⟨?_, ?_, ?_⟩
    · rw [ihfound, hfound, UInt64.add_assoc]
    · rw [ihread, hread]
      grind
    · grind

/-! ## The report -/

/-- What is found in the files that can be read, in order. -/
def results (s : Scanner) (fs : List SourceFile) : List FileResult :=
  fs.filterMap fun f => (s.searchFile f).toOption

/-- The report of a scan that handles the files one after the other: each file that can be read is
searched once, the others are passed over, and the results are sorted by path. -/
def sequential (s : Scanner) (fs : List SourceFile) : Report :=
  ((s.results fs).foldl Report.add {}).sort

theorem results_cons (s : Scanner) (f : SourceFile) (fs : List SourceFile) :
    s.results (f :: fs) = (s.searchFile f).toOption.toList ++ s.results fs := by
  rw [results, List.filterMap_cons]
  cases (s.searchFile f).toOption <;> rfl

/-- The results of a file bear out what is counted of it. -/
theorem searchFile_spec (s : Scanner) (f : SourceFile) :
    ((s.searchFile f).toOption.toList.map (·.found.size)).sum = s.hits f ∧
      (s.searchFile f).toOption.toList.length = (if f.readable then 1 else 0) ∧
      (s.searchFile f).toOption.toList.countP (fun r => !r.found.isEmpty) =
        if 0 < s.hits f then 1 else 0 := by
  unfold searchFile hits SourceFile.readable
  cases f.content with
  | ok text =>
    simp [Except.map, Except.toOption, Except.isOk, Except.toBool, Array.isEmpty,
      Nat.pos_iff_ne_zero]
  | error e => simp [Except.map, Except.toOption, Except.isOk, Except.toBool]

theorem results_spec (s : Scanner) (fs : List SourceFile) :
    ((s.results fs).map (·.found.size)).sum = (fs.map s.hits).sum ∧
      (s.results fs).length = fs.countP SourceFile.readable ∧
      (s.results fs).countP (fun r => !r.found.isEmpty) = fs.countP (0 < s.hits ·) := by
  induction fs with
  | nil => exact ⟨rfl, rfl, rfl⟩
  | cons f fs ih =>
    obtain ⟨hsize, hlength, hmatched⟩ := searchFile_spec s f
    obtain ⟨ihsize, ihlength, ihmatched⟩ := ih
    rw [results_cons, List.map_append, List.sum_append, hsize, ihsize, List.length_append, hlength,
      ihlength, List.countP_append, hmatched, ihmatched, List.countP_cons, List.countP_cons]
    refine ⟨rfl, Nat.add_comm .., ?_⟩
    rw [Nat.add_comm]
    simp

/-- The totals of the sequential report are counted from the files. -/
theorem totals_sequential (s : Scanner) (fs : List SourceFile) :
    (s.sequential fs).total = .ofNat (fs.map s.hits).sum ∧
      (s.sequential fs).searched = .ofNat (fs.countP SourceFile.readable) ∧
      (s.sequential fs).matched = .ofNat (fs.countP (0 < s.hits ·)) := by
  obtain ⟨hsize, hlength, hmatched⟩ := results_spec s fs
  rw [sequential, Report.foldl_add, ← hsize, ← hlength, ← hmatched]
  refine ⟨?_, rfl, rfl⟩
  rw [List.sum_eq_foldl, List.foldl_map]
  rfl

/-! ## Any order -/

theorem filterMap_range {α β : Type} (xs : Array α) (g : α → Option β) :
    ((List.range xs.size).filterMap fun i => xs[i]?.bind g) = xs.toList.filterMap g := by
  have hmap : (List.range xs.size).map (xs[·]?) = xs.toList.map some := by
    apply List.ext_getElem
    · simp
    · intro i h1 h2
      simp at h2
      simp [h2]
  calc (List.range xs.size).filterMap (fun i => xs[i]?.bind g)
      = ((List.range xs.size).map (xs[·]?)).filterMap (·.bind g) := by
        rw [List.filterMap_map]
        rfl
    _ = xs.toList.filterMap g := by
        rw [hmap, List.filterMap_map]
        rfl

/-- The files of an order that handles each file once. -/
theorem files_perm (h : order.Perm (List.range files.size)) :
    (order.filterMap (files[·]?)).Perm files.toList := by
  have hrange := filterMap_range files some
  simp only [Option.bind_fun_some, List.filterMap_some] at hrange
  exact hrange ▸ h.filterMap _

theorem outcomes_run (h : order.Perm (List.range files.size)) :
    (s.run files order).outcomes = files.map fun f => some (s.searchFile f) := by
  apply Array.ext_getElem?
  intro i
  rw [getElem?_outcomes_run, Array.getElem?_map]
  cases hf : files[i]? with
  | none => rfl
  | some f =>
    have hi : i < files.size := (Array.getElem?_eq_some_iff.1 hf).1
    rw [Option.map_some, Option.map_some, if_pos (h.mem_iff.2 (List.mem_range.2 hi))]

theorem stats_run_of_perm (h : order.Perm (List.range files.size)) :
    (s.run files order).stats = files.toList.foldl s.count {} := by
  rw [stats_run]
  exact (files_perm h).foldl_eq _

/-- **The report does not depend on the order.** -/
theorem report_run (h : order.Perm (List.range files.size)) (threads : Nat) :
    (s.run files order).report threads = s.sequential files.toList := by
  have hfound : (s.run files order).found (List.range files.size) = s.results files.toList := by
    rw [Progress.found, outcomes_run h, results, ← filterMap_range files]
    refine List.filterMap_congr fun i _ => ?_
    rw [Array.getD_eq_getD_getElem?, Array.getElem?_map]
    cases files[i]? with
    | none => rfl
    | some f =>
      rw [Option.map_some, Option.getD_some, Option.bind_some]
      cases s.searchFile f <;> rfl
  have hsize : (s.run files order).outcomes.size = files.size := by
    rw [outcomes_run h, Array.size_map]
  have hchunks : ∀ chunks : List (List Nat), chunks.flatMap (s.run files order).found =
      (s.run files order).found chunks.flatten := by
    intro chunks
    rw [List.flatMap_def, Progress.found, List.filterMap_flatten]
    rfl
  rw [Progress.report, hsize, hchunks, flatten_chunksOf, hfound, sequential]

/-- **A scan does not depend on the order of the work.** Whatever turns the workers take at the
chunks, each file is handled once. And in whatever order each file is handled once, the report and
the counters are those of the scan, and the report is that of searching one file after the other:

* the outcome of every file is what is found in it, whatever becomes of the others;
* the totals are the number of occurrences, of files that can be read and of files with an
  occurrence, modulo 2^64;
* the counters agree with them, and the remaining files are counted as failures. -/
theorem run_eq_sequential (s : Scanner) (threads : Nat) (files : Array SourceFile) :
    let places := List.range files.size
    let chunks := chunksOf (chunkSize files.size threads - 1) places
    let report := s.sequential files.toList
    Interleaving chunks places ∧
    (∀ order, Interleaving chunks order → order.Perm places) ∧
    ∀ order, order.Perm places →
      let p := s.run files order
      (p.report threads, p.stats) = s.scanFiles threads files ∧
      p.report threads = report ∧
      (∀ (i : Nat) f, files[i]? = some f → p.outcomes[i]? = some (some (s.searchFile f))) ∧
      report.total.toNat = (files.toList.map s.hits).sum % 2 ^ 64 ∧
      report.searched.toNat = files.toList.countP SourceFile.readable % 2 ^ 64 ∧
      report.matched.toNat = files.toList.countP (0 < s.hits ·) % 2 ^ 64 ∧
      p.stats.found = report.total ∧
      p.stats.read + p.stats.mapped = report.searched ∧
      p.stats.failed = .ofNat files.size - report.searched := by
  intro places chunks report
  have hplaces : chunks.flatten = places := flatten_chunksOf _ _
  refine ⟨hplaces ▸ interleaving_flatten chunks, fun order h => hplaces ▸ h.perm, fun order h => ?_⟩
  obtain ⟨htotal, hsearched, hmatched⟩ := totals_sequential s files.toList
  obtain ⟨hfound, hread, hfailed⟩ := foldl_count_spec s files.toList {}
  rw [← stats_run_of_perm h] at hfound hread hfailed
  refine ⟨?_, report_run h threads, fun i f hf => ?_, ?_, ?_, ?_, ?_, ?_, ?_⟩
  · rw [scanFiles, report_run h, report_run (.refl _), stats_run_of_perm h,
      stats_run_of_perm (.refl _)]
  · rw [outcomes_run h, Array.getElem?_map, hf, Option.map_some]
  · rw [htotal, UInt64.toNat_ofNat']
  · rw [hsearched, UInt64.toNat_ofNat']
  · rw [hmatched, UInt64.toNat_ofNat']
  · rw [hfound, htotal]
    exact UInt64.zero_add _
  · rw [hread, hsearched]
    exact UInt64.zero_add _
  · rw [hsearched, ← Array.length_toList]
    grind

/-- Three files, one of them unreadable, handled from the last one on. -/
theorem run_eq_sequential_unreadable :
    let s : Scanner := ⟨Builder.automatonOf [[1]], false⟩
    let files : Array SourceFile :=
      #[⟨"b", .ok ⟨#[1, 1]⟩⟩, ⟨"a", .error (.io "gone")⟩, ⟨"c", .ok ⟨#[2]⟩⟩]
    [2, 1, 0].Perm (List.range files.size) ∧
      ((s.run files [2, 1, 0]).report 2).searched.toNat = 2 := by
  intro s files
  have hperm : [2, 1, 0].Perm (List.range files.size) := by decide
  have h := (run_eq_sequential s 2 files).2.2 [2, 1, 0] hperm
  refine ⟨hperm, ?_⟩
  rw [h.2.1, h.2.2.2.2.1]
  decide

end Scanner

end PatternScan

import Mathlib.Data.List.Basic
import PatternScan.CommandLine.Run
import PatternScan.Proofs.Except
import PatternScan.Proofs.Settings

/-!
# What takes precedence

A command line that is accepted names one source of patterns at most (`one_source`), so laid over
the settings of the configuration files it has its way with the source, with the globs and with the
switches. A root and a number of threads are settings like any others, of which those that have
their default values say nothing: whether they were given is not known any more. They take
precedence exactly if this makes no difference (`root_takes_precedence_iff`,
`threads_take_precedence_iff`).
-/

namespace PatternScan.CommandLine

/-! ## Command lines that are accepted -/

section Accepted

variable {v : Invocation} {o : ScanOptions} {words : List String} {g leading : Given}

theorem one_source_of_scanCommand (h : scanCommand g = .ok (.scan o)) :
    o.patterns = none ∨ o.automaton = none := by
  unfold scanCommand at h
  split at h
  · cases h
  · next hboth =>
    injection h with h
    injection h with h
    subst h
    simpa [Given.has, Decidable.imp_iff_not_or] using hboth

theorem exists_of_commandOf {specs : List OptionSpec} {accepts : List (String → Bool)}
    {read : Given → Except Stop Command} (h : commandOf leading specs accepts read words = .ok v) :
    ∃ g, read g = .ok v.command := by
  obtain ⟨g, -, h⟩ := bind_eq_ok_iff.1 h
  obtain ⟨command, hread, ⟨⟩⟩ := bind_eq_ok_iff.1 h
  exact ⟨g, hread⟩

theorem one_source {verbosity : Nat} (h : Invocation.ofWords words = .ok ⟨verbosity, .scan o⟩) :
    o.patterns = none ∨ o.automaton = none := by
  obtain ⟨leading, -, h⟩ := bind_eq_ok_iff.1 h
  -- no other command reads its options as those of a scan
  split at h
  · cases h
  · obtain ⟨g, h⟩ := exists_of_commandOf h
    obtain ⟨_, -, h⟩ := bind_eq_ok_iff.1 h
    obtain ⟨_, -, ⟨⟩⟩ := bind_eq_ok_iff.1 h
  · obtain ⟨g, h⟩ := exists_of_commandOf h
    exact one_source_of_scanCommand h
  · obtain ⟨g, h⟩ := exists_of_commandOf h
    unfold inspectCommand at h
    split at h <;> cases h
  · cases h
  · cases h

end Accepted

/-! ## Options over the settings of the configuration files -/

/-- What the options of a scan give stands in `s`, and what they do not give is as in `file`. Of a
path only its components count. -/
structure TakePrecedence (o : ScanOptions) (file s : Settings) : Prop where
  root : Path.same s.rootPath (o.root.getD file.rootPath)
  threads : s.threadCount = o.threads.getD file.threadCount
  patterns : ∀ path, o.patterns = some path → s.patternsFile = some path ∧
    s.automatonPath = none ∧
    s.source = .ok (if s.hexPatterns then .hexFile path else .literalFile path)
  automaton : ∀ path, o.automaton = some path → s.automatonPath = some path ∧
    s.patternsFile = none ∧ s.source = .ok (.automaton path)
  sources : o.patterns = none → o.automaton = none →
    s.patternsFile = file.patternsFile ∧ s.automatonPath = file.automatonPath
  hex : s.hexPatterns = if o.hex then true else file.hexPatterns
  first : s.firstOnly = if o.first then true else file.firstOnly
  stats : s.statsOnly = if o.stats then true else file.statsOnly
  ignore : s.ignorePatterns = if o.ignore = [] then file.ignorePatterns else o.ignore
  logLevel : s.logLevel = file.logLevel

variable {n : Nat} {o : ScanOptions} {file : Settings}

theorem root_takes_precedence_iff :
    Path.same (file.merge n (o.settings n)).rootPath (o.root.getD file.rootPath) ↔
      ∀ path, o.root = some path → Path.same path "." → Path.same file.rootPath "." := by
  rw [Settings.merge_rootPath]
  cases hroot : o.root with
  | none => simp [ScanOptions.settings, Settings.defaults, hroot, Path.same_refl]
  | some path =>
    by_cases h : Path.same path "."
    · simp only [ScanOptions.settings, hroot, Option.getD_some, h, if_true, Option.some.injEq,
        forall_eq', true_imp_iff]
      exact ⟨fun hfile => Path.same_trans hfile h, fun hfile =>
        Path.same_trans hfile (Path.same_symm h)⟩
    · simp [ScanOptions.settings, hroot, h, Path.same_refl]

theorem threads_take_precedence_iff :
    (file.merge n (o.settings n)).threadCount = o.threads.getD file.threadCount ↔
      (o.threads = some n → file.threadCount = n) := by
  rw [Settings.merge_threadCount]
  cases hthreads : o.threads with
  | none => simp [ScanOptions.settings, Settings.defaults, hthreads]
  | some k =>
    by_cases h : k = n
    · simp [ScanOptions.settings, hthreads, h]
    · simp [ScanOptions.settings, hthreads, h]

theorem takePrecedence_of_root_of_threads (hone : o.patterns = none ∨ o.automaton = none)
    (hroot : Path.same (file.merge n (o.settings n)).rootPath (o.root.getD file.rootPath))
    (hthreads : (file.merge n (o.settings n)).threadCount = o.threads.getD file.threadCount) :
    TakePrecedence o file (file.merge n (o.settings n)) where
  root := hroot
  threads := hthreads
  patterns path h := by
    have hautomaton : o.automaton = none := hone.resolve_left (by simp [h])
    simp [Settings.merge, Settings.source, ScanOptions.settings, h, hautomaton]
  automaton path h := by
    simp [Settings.merge, Settings.source, ScanOptions.settings, h]
  sources hpatterns hautomaton := by
    simp [Settings.merge, ScanOptions.settings, hpatterns, hautomaton]
  hex := by cases h : o.hex <;> simp [Settings.merge, ScanOptions.settings, h]
  first := by cases h : o.first <;> simp [Settings.merge, ScanOptions.settings, h]
  stats := by cases h : o.stats <;> simp [Settings.merge, ScanOptions.settings, h]
  ignore := by simp [Settings.merge, ScanOptions.settings]
  logLevel := by rw [Settings.merge_logLevel]; exact if_pos rfl

theorem not_same_src : ¬Path.same "src" "." := by decide +kernel

/-- **The command line takes precedence** over the configuration files exactly if it does not give a
default value that they have changed: neither the working directory as the root nor the number of
processors as that of threads. -/
theorem precedence_iff {words : List String} {verbosity : Nat}
    (h : Invocation.ofWords words = .ok ⟨verbosity, .scan o⟩) (fs : FileSystem)
    (user : Option String) :
    effectiveSettings fs n user o =
        (Settings.load fs n user o.config).map (·.merge n (o.settings n)) ∧
      ∀ file, TakePrecedence o file (file.merge n (o.settings n)) ↔
        (∀ path, o.root = some path → Path.same path "." → Path.same file.rootPath ".") ∧
          (o.threads = some n → file.threadCount = n) := by
  refine ⟨?_, fun file => ⟨fun hfile => ?_, fun ⟨hroot, hthreads⟩ => ?_⟩⟩
  · unfold effectiveSettings
    cases Settings.load fs n user o.config <;> rfl
  · exact ⟨root_takes_precedence_iff.1 hfile.root, threads_take_precedence_iff.1 hfile.threads⟩
  · exact takePrecedence_of_root_of_threads (one_source h) (root_takes_precedence_iff.2 hroot)
      (threads_take_precedence_iff.2 hthreads)

/-- A root and a number of threads that are no defaults. -/
theorem precedence_iff_other :
    let o : ScanOptions := { automaton := some "sigs.acs", root := some "src", threads := some 8 }
    let file : Settings :=
      { Settings.defaults 4 with patternsFile := some "w.txt", threadCount := 2 }
    Invocation.ofWords ["scan", "-a", "sigs.acs", "-d", "src", "-j", "8"] = .ok ⟨0, .scan o⟩ ∧
      TakePrecedence o file (file.merge 4 (o.settings 4)) := by
  intro o file
  have hwords : Invocation.ofWords ["scan", "-a", "sigs.acs", "-d", "src", "-j", "8"] =
      .ok ⟨0, .scan o⟩ := by decide +kernel
  refine ⟨hwords, ((precedence_iff hwords {} none).2 file).2 ⟨?_, by decide⟩⟩
  rintro path ⟨⟩ h
  exact absurd h not_same_src

/-- The working directory is given as the root, but the root of the configuration file stays. -/
theorem root_not_taken :
    let o : ScanOptions := { patterns := some "w.txt", root := some ".", stats := true }
    let file : Settings := { Settings.defaults 4 with rootPath := "src" }
    Invocation.ofWords ["scan", "-p", "w.txt", "-d", ".", "-s"] = .ok ⟨0, .scan o⟩ ∧
      Settings.ofTexts 4 ["root_path: src\n"] = .ok file ∧
      ¬TakePrecedence o file (file.merge 4 (o.settings 4)) := by
  intro o file
  refine ⟨by decide +kernel, by decide +kernel, fun h => ?_⟩
  exact not_same_src (root_takes_precedence_iff.1 h.root "." rfl (Path.same_refl "."))

end PatternScan.CommandLine

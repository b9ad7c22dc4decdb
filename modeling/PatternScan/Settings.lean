import PatternScan.Error
import PatternScan.Path

/-!
# Settings of a scan

What to search for, where, and what to report. Settings come in layers: `Settings.merge` lays what a
command line gives over what configuration files say. A field of the upper layer that has its
default value says nothing.
-/

namespace PatternScan

/-- The settings of a scan. -/
structure Settings where
  /-- A file of patterns, one a line. -/
  patternsFile : Option String := none
  /-- The patterns are written in hexadecimal digits. -/
  hexPatterns : Bool := false
  /-- The container of a compiled automaton, which is used instead of a pattern file. -/
  automatonPath : Option String := none
  rootPath : String := "."
  /-- Globs of what is left out, beside the ignore files. -/
  ignorePatterns : List String := []
  /-- Only the first occurrence in each file is reported. -/
  firstOnly : Bool := false
  /-- Only the totals are shown. -/
  statsOnly : Bool := false
  threadCount : Nat
  logLevel : String := "warn"
deriving DecidableEq, Repr

/-- Where the patterns of a scan come from. -/
inductive PatternSource
  | automaton (path : String)
  | hexFile (path : String)
  | literalFile (path : String)
deriving DecidableEq, Repr

namespace Settings

/-- The settings nobody has changed, on a machine with the given number of processors. -/
def defaults (processors : Nat) : Settings :=
  { threadCount := processors }

/-- Lays `upper` over `base`. A source in `upper` replaces both sources, its automaton if it names
both; flags switch on; every other field counts where it differs from its default. -/
def merge (processors : Nat) (base upper : Settings) : Settings :=
  let dflt := defaults processors
  { patternsFile :=
      if upper.automatonPath.isSome then none
      else upper.patternsFile.orElse fun _ => base.patternsFile
    hexPatterns := base.hexPatterns || upper.hexPatterns
    automatonPath :=
      upper.automatonPath.orElse fun _ =>
        if upper.patternsFile.isSome then none else base.automatonPath
    rootPath := if Path.same upper.rootPath dflt.rootPath then base.rootPath else upper.rootPath
    ignorePatterns :=
      if upper.ignorePatterns.isEmpty then base.ignorePatterns else upper.ignorePatterns
    firstOnly := base.firstOnly || upper.firstOnly
    statsOnly := base.statsOnly || upper.statsOnly
    threadCount :=
      if upper.threadCount = dflt.threadCount then base.threadCount else upper.threadCount
    logLevel := if upper.logLevel = dflt.logLevel then base.logLevel else upper.logLevel }

/-- No source of patterns is set. -/
def noSource : Error :=
  .config "no patterns: set patterns_file or automaton_path"

/-- Where the patterns come from: a compiled automaton before a pattern file. -/
def source (s : Settings) : Except Error PatternSource :=
  match s.automatonPath, s.patternsFile with
  | some path, _ => .ok (.automaton path)
  | none, some path => .ok (if s.hexPatterns then .hexFile path else .literalFile path)
  | none, none => .error noSource

/-- Two optional paths are the same path. -/
def samePath? (a b : Option String) : Bool :=
  a.map Path.components = b.map Path.components

/-- Two settings are equal up to the way their paths are written. -/
def same (a b : Settings) : Bool :=
  samePath? a.patternsFile b.patternsFile && samePath? a.automatonPath b.automatonPath &&
    Path.same a.rootPath b.rootPath &&
    { a with patternsFile := none, automatonPath := none, rootPath := "" } =
      { b with patternsFile := none, automatonPath := none, rootPath := "" }

end Settings

end PatternScan

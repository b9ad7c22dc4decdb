import PatternScan.Container
import PatternScan.Ignore.Walk
import PatternScan.PatternFile
import PatternScan.Scan
import PatternScan.Settings

/-!
# Scanning a tree

A scan as its settings describe it: the automaton is built from a pattern file or read from a
container, and run over the files below the root.
-/

namespace PatternScan

/-- The automaton in the container at the end of a path. -/
def Container.load (fs : FileSystem) (path : String) : Except Error Automaton := do
  (decode (← fs.read path)).mapError Error.ofFailure

/-- Writes the container of an automaton at the end of a path. -/
def Container.save (fs : FileSystem) (path : String) (a : Automaton) : Except Error FileSystem :=
  fs.write path (encode a)

/-- The builder with the patterns of a file, and what is to be told about them. -/
def PatternFile.load (fs : FileSystem) (form : Form) (path : String) :
    Except Error (Builder × List Notice) := do
  let reading := read form (← fs.read path).data.toList
  match reading.failure with
  | some e => throw e
  | none =>
    let b : Builder := {}
    return (b.addAll reading.patterns, b.addAllNotices reading.patterns)

namespace Settings

/-- The automaton that is to be searched with, and what is to be told about it. -/
def automaton (fs : FileSystem) (s : Settings) : Except Error (Automaton × List Notice) := do
  let compile (form : PatternFile.Form) (path : String) :
      Except Error (Automaton × List Notice) := do
    let (b, notices) ← PatternFile.load fs form path
    return (b.build, notices ++ [b.buildNotice])
  match ← s.source with
  | .automaton path => do
    let a ← Container.load fs path
    return (a, [Container.decodeNotice a])
  | .hexFile path => compile .hex path
  | .literalFile path => compile .literal path

/-- An exclusion is no glob. -/
def badExclusion : Error :=
  .config "invalid ignore pattern"

/-- Scans the files below the root: the report and the counters. -/
def scan (fs : FileSystem) (s : Settings) (a : Automaton) : Except Error (Report × ScanStats) := do
  match fs.locate s.rootPath with
  | .error _ => throw (.fileNotFound s.rootPath)
  | .ok (place, t) =>
    match Ignore.exclusions? s.ignorePatterns with
    | none => throw badExclusion
    | some exclusions =>
      let paths := Ignore.walk fs exclusions s.rootPath place t
      return Scanner.scanFiles ⟨a, s.firstOnly⟩ s.threadCount
        (paths.map (SourceFile.ofPath fs)).toArray

end Settings

end PatternScan

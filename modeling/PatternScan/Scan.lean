import PatternScan.FileTree
import PatternScan.Report
import PatternScan.Scan.Stats

/-!
# Scanning files

One automaton is run over many files, one file at a time or by several workers. The files are cut
into chunks; workers handle the files of the chunks in any order, each puts the outcome of a file at
the place of the file and counts it. The report is put together chunk by chunk when all files have
been handled, so that it does not depend on the order: `Scanner.run` takes the order as an argument.
-/

namespace PatternScan

/-- A file that is to be scanned: its bytes, or why it cannot be read. -/
structure SourceFile where
  path : String
  content : Except Error ByteArray

namespace SourceFile

/-- The file at the end of a path. -/
def ofPath (fs : FileSystem) (path : String) : SourceFile :=
  ⟨path, fs.read path⟩

end SourceFile

/-- An automaton to run over files, and whether only the first occurrence in each file counts. -/
structure Scanner where
  automaton : Automaton
  firstOnly : Bool := false

namespace Scanner

/-! ## One file -/

/-- What is found in a text. -/
def search (s : Scanner) (text : ByteArray) : Array Occurrence :=
  if s.firstOnly then (s.automaton.findFirst? text).toArray else s.automaton.findAll text

/-- What is found in a file. -/
def searchFile (s : Scanner) (f : SourceFile) : Except Error FileResult :=
  f.content.map fun text => ⟨f.path, s.search text⟩

/-- The counters after a file. -/
def count (s : Scanner) (stats : ScanStats) (f : SourceFile) : ScanStats :=
  match f.content with
  | .ok text => stats.countFile (.ofNat text.size) (.ofNat (s.search text).size)
  | .error _ => stats.countFailure

/-! ## Many files -/

/-- The state of a scan: for each file what is found in it once it has been handled, and the
counters. -/
structure Progress where
  outcomes : Array (Option (Except Error FileResult))
  stats : ScanStats := {}

/-- A worker handles the file at a place. -/
def handle (s : Scanner) (files : Array SourceFile) (p : Progress) (i : Nat) : Progress :=
  match files[i]? with
  | none => p
  | some f =>
    { outcomes := p.outcomes.setIfInBounds i (some (s.searchFile f)), stats := s.count p.stats f }

/-- Workers handle the files at the given places, one after the other. -/
def run (s : Scanner) (files : Array SourceFile) (order : List Nat) : Progress :=
  order.foldl (s.handle files) { outcomes := Array.replicate files.size none }

/-- The number of files in a chunk: an even share, but neither too few nor too many. -/
def chunkSize (files threads : Nat) : Nat :=
  min 256 (max 16 (files / threads))

/-- Cuts a list into chunks of `k + 1` elements; the last one may be shorter. -/
def chunksOf {α : Type} (k : Nat) : List α → List (List α)
  | [] => []
  | x :: xs => (x :: xs.take k) :: chunksOf k (xs.drop k)
termination_by xs => xs.length
decreasing_by simp only [List.length_cons, List.length_drop]; omega

/-- What has been found in the files at some places; files that could not be read are passed over.
-/
def Progress.found (p : Progress) (places : List Nat) : List FileResult :=
  places.filterMap fun i =>
    match p.outcomes.getD i none with
    | some (.ok result) => some result
    | _ => none

/-- The report of a scan: the results chunk by chunk, sorted by path. -/
def Progress.report (p : Progress) (threads : Nat) : Report :=
  let files := p.outcomes.size
  let chunks := chunksOf (chunkSize files threads - 1) (List.range files)
  ((chunks.flatMap p.found).foldl Report.add {}).sort

/-- Scans files with a number of threads: the report and the counters. -/
def scanFiles (s : Scanner) (threads : Nat) (files : Array SourceFile) : Report × ScanStats :=
  let p := s.run files (List.range files.size)
  (p.report threads, p.stats)

end Scanner

end PatternScan

import PatternScan.Automaton
import PatternScan.Path

/-!
# Reports of a scan

A report collects what a scan has found in each file, with the totals kept alongside: occurrences,
files, and files with an occurrence. The totals wrap around at 2^64.
-/

namespace PatternScan

/-- What was found in one file. -/
structure FileResult where
  path : String
  found : Array Occurrence
deriving DecidableEq, Inhabited, Repr

/-- The results of all files and their totals. -/
structure Report where
  results : Array FileResult := #[]
  /-- The number of occurrences. -/
  total : UInt64 := 0
  /-- The number of files. -/
  searched : UInt64 := 0
  /-- The number of files with an occurrence. -/
  matched : UInt64 := 0
deriving DecidableEq, Inhabited, Repr

namespace Report

/-- Adds the result of one file. -/
def add (r : Report) (f : FileResult) : Report :=
  { results := r.results.push f
    total := r.total + .ofNat f.found.size
    searched := r.searched + 1
    matched := r.matched + if f.found.isEmpty then 0 else 1 }

/-- Puts the results of another report behind those of this one. -/
def merge (r other : Report) : Report :=
  { results := r.results ++ other.results
    total := r.total + other.total
    searched := r.searched + other.searched
    matched := r.matched + other.matched }

/-- Sorts the results by path; results whose paths are the same path keep their order. -/
def sort (r : Report) : Report :=
  let sorted := r.results.toList.mergeSort fun a b => (Path.compare a.path b.path).isLE
  { r with results := sorted.toArray }

/-- The report of a list of results. -/
def ofResults (fs : List FileResult) : Report :=
  { results := fs.toArray
    total := .ofNat (fs.foldl (fun n f => n + f.found.size) 0)
    searched := .ofNat fs.length
    matched := .ofNat (fs.countP fun f => !f.found.isEmpty) }

/-- Two results are alike: the same path and the same occurrences. -/
def alike (a b : FileResult) : Bool :=
  Path.same a.path b.path && a.found = b.found

/-- Two reports are equal up to the way their paths are written. -/
def same (a b : Report) : Bool :=
  a.results.size = b.results.size && (a.results.zip b.results).all (fun (f, g) => alike f g) &&
    a.total = b.total && a.searched = b.searched && a.matched = b.matched

end Report

end PatternScan

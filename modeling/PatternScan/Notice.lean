import PatternScan.Text.Quoted

/-!
# Notices

What the library reports of its work beside its results, each with a level and one line or block of
text.
-/

namespace PatternScan

/-- How important a notice is. -/
inductive Notice.Level
  | debug
  | info
  | warn
deriving DecidableEq, Repr

/-- The name of a level. -/
def Notice.Level.name : Notice.Level → String
  | debug => "DEBUG"
  | info => "INFO"
  | warn => "WARN"

/-- The levels a report of the given name covers: the name of a level stands for it and those above.
-/
def Notice.Level.covered (name : String) : List Level :=
  match name with
  | "warn" => [warn]
  | "info" => [info, warn]
  | "debug" | "trace" => [debug, info, warn]
  | _ => []

/-- Something worth telling that is no result. -/
inductive Notice
  /-- An empty pattern was offered and left out. -/
  | emptyPattern
  /-- The pattern under `index` equals the one under `earlier`, whose index is never reported. -/
  | superseded (index earlier : Nat) (pattern : List UInt8)
  | built (patterns states : Nat)
  | encoded (states : Nat)
  | decoded (states : Nat)
  /-- A buffer was dropped on release because it had grown too large. -/
  | oversized (capacity : Nat)
  | poolStats (hits misses released discarded : UInt64)
  | scanStats (bytes hits read mapped failed : UInt64)
deriving DecidableEq, Repr

namespace Notice

/-- The level of a notice. -/
def level : Notice → Level
  | emptyPattern => .warn
  | superseded .. | encoded .. | decoded .. | oversized .. => .debug
  | built .. | poolStats .. | scanStats .. => .info

/-- The text of a notice. -/
def message : Notice → String
  | emptyPattern => "Ignoring empty pattern"
  | superseded index earlier pattern =>
    s!"Pattern {index} duplicates pattern {earlier} ({Text.quoteLossy pattern}); " ++
      "the earlier index is superseded"
  | built patterns states => s!"Built automaton: {patterns} patterns, {states} states"
  | encoded states => s!"Encoded automaton with {states} states"
  | decoded states => s!"Decoded automaton with {states} states"
  | oversized capacity => s!"Dropping oversized match buffer ({capacity} records)"
  | poolStats hits misses released discarded =>
    s!"Match pool stats: hits/misses: {hits}/{misses}, released/discarded: {released}/{discarded}"
  | scanStats bytes hits read mapped failed =>
    s!"Scan stats:\nBytes scanned: {bytes}\nMatches found: {hits}\n" ++
      s!"Files processed (read/mmap): {read}/{mapped}\nFiles failed: {failed}"

/-- A notice as one entry of a log. -/
def entry (n : Notice) : String :=
  n.level.name ++ " " ++ n.message

end Notice

end PatternScan

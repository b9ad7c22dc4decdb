import PatternScan.Container.Defect
import PatternScan.Container.Depths

/-!
# Checking a table

A table from outside is accepted if every transition leads to a state other than the sentinel, the
reserved states neither accept nor link, links lead to accepting states with shorter patterns, and
no state that can be reached reports a match longer than the shortest way to it. Then every scan
ends, stays inside the table, and reports only matches inside the text.
-/

namespace PatternScan.Automaton

open Container (Defect)

/-- The first byte on which a row leads outside the table or to the sentinel. -/
def badByte? (a : Automaton) (cell : Cell) : Option Nat :=
  cell.next.toArray.findIdx? fun t => t = StateId.sentinel || a.size ≤ t

/-- The first transition that leads outside the table or to the sentinel. -/
def badTarget? (a : Automaton) : Option Defect := do
  let s ← a.cells.findIdx? fun cell => (a.badByte? cell).isSome
  let byte ← a.badByte? (a.cell s)
  return .badTarget s byte ((a.cell s).next.toArray.getD byte 0)

/-- The first reserved state that accepts or links. -/
def badReserved? (a : Automaton) : Option Defect :=
  let bad s := (a.cell s).len ≠ 0 || (a.cell s).link ≠ StateId.sentinel
  ([StateId.sentinel, StateId.root].find? fun s => bad s).map .reservedState

/-- What is wrong with the link of a state. -/
def linkDefect? (a : Automaton) (s : StateId) (cell : Cell) : Option Defect :=
  if cell.link = StateId.sentinel then none
  else
    let target := a.cell cell.link
    if a.size ≤ cell.link || target.len = 0 then some (.badLink s cell.link)
    else if cell.len ≠ 0 && cell.len ≤ target.len then some (.linkNotShorter s)
    else none

/-- The first defect of a link. -/
def badLink? (a : Automaton) : Option Defect :=
  (List.range a.size).findSome? fun s => a.linkDefect? s (a.cell s)

/-- The longest match that is reported in a state: its own or the first on its chain. -/
def longestMatch (a : Automaton) (cell : Cell) : Nat :=
  max cell.len (if cell.link = StateId.sentinel then 0 else (a.cell cell.link).len)

/-- The first state that reports a match longer than the shortest way to it. -/
def badLength? (a : Automaton) : Option Defect :=
  let depths := a.depths
  (List.range a.size).findSome? fun s => do
    let depth ← depths.getD s none
    let len := a.longestMatch (a.cell s)
    if depth < len then some (.matchTooLong s len depth) else none

/-- The first defect of a table, the kinds of defect in a fixed order. -/
def defect? (a : Automaton) : Option Defect :=
  (a.badTarget?.orElse fun _ => a.badReserved?).orElse fun _ =>
    a.badLink?.orElse fun _ => a.badLength?

end PatternScan.Automaton

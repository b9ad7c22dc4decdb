import PatternScan.StateId

/-!
# The matching automaton

An automaton has one cell per state: the next state on every byte, the length and index of the
pattern that ends there, and the link to the next accepting state on the suffix chain. A scan makes
one table step per byte, then reports the pattern of the state it is in and of every state on the
chain. `Automaton.walk` is that scan with a callback, which carries a state of its own and says
after every event whether the walk goes on; all searches are walks with different callbacks.
-/

namespace PatternScan

/-- What an automaton knows of one state. -/
structure Cell where
  /-- The next state on every byte. -/
  next : Vector StateId 256
  /-- The length of the pattern that ends here, or 0. -/
  len : Nat := 0
  /-- The next accepting state on the suffix chain, or the sentinel. -/
  link : StateId := StateId.sentinel
  /-- The index of the pattern that ends here. -/
  pattern : Nat := 0
deriving DecidableEq

namespace Cell

instance : Inhabited Cell := ⟨{ next := Vector.replicate 256 StateId.sentinel }⟩

/-- The next state on a byte. -/
@[inline] def step (cell : Cell) (c : UInt8) : StateId :=
  cell.next.get ⟨c.toNat, c.toNat_lt⟩

end Cell

/-- One occurrence as a walk reports it: the offset of its last byte, its length and the index of
its pattern. -/
structure Event where
  last : Nat
  len : Nat
  pattern : Nat
deriving DecidableEq, Inhabited, Repr

/-- One occurrence by its first byte. -/
structure Occurrence where
  start : Nat
  len : Nat
  pattern : Nat
deriving DecidableEq, Inhabited, Repr

namespace Occurrence

/-- The offset one past the last byte. -/
def stop (o : Occurrence) : Nat :=
  o.start + o.len

/-- The bytes of an occurrence in `text`. -/
def bytes (o : Occurrence) (text : ByteArray) : ByteArray :=
  text.extract o.start o.stop

end Occurrence

/-- The occurrence an event stands for. -/
def Event.occurrence (e : Event) : Occurrence :=
  ⟨e.last + 1 - e.len, e.len, e.pattern⟩

/-- The matching automaton: a cell for every state, sentinel and root first. -/
structure Automaton where
  cells : Array Cell
deriving DecidableEq, Inhabited

namespace Automaton

/-- The number of states, sentinel and root included. -/
def size (a : Automaton) : Nat :=
  a.cells.size

/-- The cell of a state; past the end of the table a cell that leads and links to the sentinel. -/
@[inline] def cell (a : Automaton) (s : StateId) : Cell :=
  if h : s < a.cells.size then a.cells[s] else default

/-- The number of states where a pattern ends. -/
def acceptingCount (a : Automaton) : Nat :=
  a.cells.foldl (fun n cell => if 0 < cell.len then n + 1 else n) 0

/-- The length of the longest pattern, or 0 without any. -/
def maxPatternLen (a : Automaton) : Nat :=
  a.cells.foldl (fun n cell => max n cell.len) 0

/-- The bytes the tables take at eight bytes an entry: a row of 256 entries and three further ones
for each state. -/
def heapSize (a : Automaton) : Nat :=
  8 * (256 * a.size + 3 * a.size)

/-! ## The walk -/

section Walk

variable {σ : Type}

/-- Reports the accepting states on the chain that starts with `u`, at most `steps` of them. -/
def reportChain (a : Automaton) (f : σ → Event → σ × Bool) (last : Nat) :
    Nat → StateId → σ → σ × Bool
  | 0, _, x => (x, true)
  | steps + 1, u, x =>
    if u = StateId.sentinel then (x, true)
    else
      let cell := a.cell u
      match f x ⟨last, cell.len, cell.pattern⟩ with
      | (x, true) => reportChain a f last steps cell.link x
      | (x, false) => (x, false)

/-- Reports what ends at offset `last` in the state of `cell`: its own pattern first, then the
chain. Lengths strictly decrease along a chain, so it is shorter than the number of states. -/
@[inline] def report (a : Automaton) (f : σ → Event → σ × Bool) (last : Nat) (cell : Cell) (x : σ) :
    σ × Bool :=
  if cell.len = 0 then a.reportChain f last a.size cell.link x
  else
    match f x ⟨last, cell.len, cell.pattern⟩ with
    | (x, true) => a.reportChain f last a.size cell.link x
    | (x, false) => (x, false)

/-- The walk over the bytes of `text` from offset `i` on, from the state `s`. -/
@[specialize] def walkFrom (a : Automaton) (f : σ → Event → σ × Bool) (text : ByteArray)
    (i : Nat) (s : StateId) (x : σ) : σ :=
  if h : i < text.size then
    let s := (a.cell s).step text[i]
    let cell := a.cell s
    if cell.len = 0 && cell.link = StateId.sentinel then walkFrom a f text (i + 1) s x
    else
      match a.report f i cell x with
      | (x, true) => walkFrom a f text (i + 1) s x
      | (x, false) => x
  else x
termination_by text.size - i

/-- Runs the automaton over `text` and calls `f` on every event with the callback's own state,
in ascending order of the last byte and, at one byte, by decreasing length. The walk ends with the
text or when `f` answers `false`; the result is the callback's state then. -/
def walk (a : Automaton) (f : σ → Event → σ × Bool) (text : ByteArray) (x : σ) : σ :=
  a.walkFrom f text 0 StateId.root x

end Walk

/-! ## Searches -/

/-- Every event of a text. -/
def events (a : Automaton) (text : ByteArray) : Array Event :=
  a.walk (fun es e => (es.push e, true)) text #[]

/-- The events up to the first at which `limit` of them are there; the first is always there. -/
def eventsUpTo (a : Automaton) (limit : Nat) (text : ByteArray) : Array Event :=
  a.walk (fun es e => let es := es.push e; (es, es.size < limit)) text #[]

/-- Every occurrence of every pattern, overlapping ones included. -/
def findAll (a : Automaton) (text : ByteArray) : Array Occurrence :=
  a.walk (fun os e => (os.push e.occurrence, true)) text #[]

/-- The first occurrence a walk reports. -/
def findFirst? (a : Automaton) (text : ByteArray) : Option Occurrence :=
  a.walk (fun _ e => (some e.occurrence, false)) text none

/-- Some pattern occurs in the text. -/
def isMatch (a : Automaton) (text : ByteArray) : Bool :=
  a.walk (fun _ _ => (true, false)) text false

end Automaton

end PatternScan

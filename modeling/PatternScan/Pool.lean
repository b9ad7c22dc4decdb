import PatternScan.Automaton
import PatternScan.Notice

/-!
# Reusing result buffers

A pool lends buffers of occurrences. It hands out the buffer that came back last, or makes a new one
when none is free; a buffer that comes back is cleared and kept, unless it has grown past the
largest capacity worth keeping. Buffers carry an identity, so that it can be said of a run that no
buffer is in two hands, and their capacity follows the growth rule of a doubling array.
-/

namespace PatternScan

/-- A buffer of occurrences with room for `capacity` of them. -/
structure Buffer where
  id : Nat
  capacity : Nat
  records : Array Occurrence := #[]
deriving DecidableEq, Inhabited

namespace Buffer

/-- The number of records held. -/
def len (b : Buffer) : Nat :=
  b.records.size

/-- The capacity after making room for `total` records: at least the double and at least 4, or
unchanged if they fit. -/
def roomFor (capacity total : Nat) : Nat :=
  if total ≤ capacity then capacity else max (max (2 * capacity) total) 4

/-- Appends a record. -/
def push (b : Buffer) (o : Occurrence) : Buffer :=
  let ⟨id, capacity, records⟩ := b
  ⟨id, roomFor capacity (records.size + 1), records.push o⟩

/-- Appends records one after the other. -/
def append (b : Buffer) (os : Array Occurrence) : Buffer :=
  os.foldl push b

/-- Makes room for `n` further records. -/
def reserve (b : Buffer) (n : Nat) : Buffer :=
  { b with capacity := roomFor b.capacity (b.len + n) }

/-- Forgets the records and keeps the room. -/
def clear (b : Buffer) : Buffer :=
  { b with records := #[] }

end Buffer

/-- How often a pool could lend a free buffer or had to make one, and how many that came back were
kept or dropped. The counters wrap around at 2^64. -/
structure PoolStats where
  hits : UInt64 := 0
  misses : UInt64 := 0
  released : UInt64 := 0
  discarded : UInt64 := 0
deriving DecidableEq, Inhabited, Repr

namespace PoolStats

/-- Counts a loan, served from a free buffer or not. -/
def countAcquire (s : PoolStats) (hit : Bool) : PoolStats :=
  if hit then { s with hits := s.hits + 1 } else { s with misses := s.misses + 1 }

/-- Counts a return, kept or dropped. -/
def countRelease (s : PoolStats) (kept : Bool) : PoolStats :=
  if kept then { s with released := s.released + 1 } else { s with discarded := s.discarded + 1 }

/-- The counters as a notice. -/
def notice (s : PoolStats) : Notice :=
  .poolStats s.hits s.misses s.released s.discarded

end PoolStats

/-- A pool of buffers. -/
structure Pool where
  /-- The buffers that can be lent, the next one first. -/
  free : List Buffer
  /-- The capacity of a new buffer. -/
  bufferCapacity : Nat
  /-- The identity of the next new buffer. -/
  nextId : Nat
  stats : PoolStats := {}
deriving DecidableEq, Inhabited

namespace Pool

/-- A pool of `prewarm` buffers of the given capacity. -/
def withCapacity (prewarm capacity : Nat) : Pool :=
  { free := (List.range prewarm).map fun id => { id, capacity }
    bufferCapacity := capacity
    nextId := prewarm }

/-- The pool every automaton starts with. -/
def standard : Pool :=
  withCapacity 64 16

/-- The number of free buffers. -/
def available (p : Pool) : Nat :=
  p.free.length

/-- The largest capacity a buffer may have to be kept on return. -/
def maxKeptCapacity : Nat :=
  65536

/-- A buffer of this capacity is dropped on return. -/
def oversized (b : Buffer) : Bool :=
  maxKeptCapacity < b.capacity

/-- Lends a free buffer, or a new one if none is free. -/
def acquire (p : Pool) : Buffer × Pool :=
  match p.free with
  | b :: free => (b, { p with free := free, stats := p.stats.countAcquire true })
  | [] =>
    ({ id := p.nextId, capacity := p.bufferCapacity },
      { p with nextId := p.nextId + 1, stats := p.stats.countAcquire false })

/-- Takes a buffer back: cleared onto the free ones, or dropped if it has grown too large. -/
def release (p : Pool) (b : Buffer) : Pool :=
  if oversized b then { p with stats := p.stats.countRelease false }
  else { p with free := b.clear :: p.free, stats := p.stats.countRelease true }

/-- What taking a buffer back gives notice of. -/
def releaseNotice? (b : Buffer) : Option Notice :=
  if oversized b then some (.oversized b.capacity) else none

end Pool

end PatternScan

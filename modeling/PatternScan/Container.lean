import PatternScan.Compression.Gzip
import PatternScan.Container.Check
import PatternScan.Container.Words
import PatternScan.Notice

/-!
# Containers of compiled automata

The payload of a container is a sequence of 64-bit words: the number of states four times, once for
every column of the table, then the columns: lengths, transition rows, links and pattern indices. A
container is the payload as a gzip member. `Container.decode` accepts exactly the payloads that hold
a checked table, and nothing partial is handed back; `Container.payload` writes them.
-/

namespace PatternScan.Container

/-- The words of an automaton's payload. -/
def words (a : Automaton) : List Nat :=
  let column (f : Cell → Nat) := (a.cells.map f).toList
  List.replicate 4 a.size ++ column (·.len) ++
    (a.cells.toList.flatMap fun cell => cell.next.toList) ++ column (·.link) ++
    column (·.pattern)

/-- The payload of an automaton. -/
def payload (a : Automaton) : ByteArray :=
  ofWords (words a)

/-- The container of an automaton. -/
def encode (a : Automaton) : ByteArray :=
  Compression.Gzip.pack (payload a)

/-- The table with the given columns; the transitions stand row after row. -/
def ofColumns (size : Nat) (len next link pattern : Array Nat) : Automaton :=
  ⟨Array.ofFn fun s : Fin size =>
    { next := Vector.ofFn fun c : Fin 256 => next.getD (256 * s.val + c.val) 0
      len := len.getD s.val 0
      link := link.getD s.val 0
      pattern := pattern.getD s.val 0 }⟩

/-- The number of states a payload announces. The four counts have to agree, the reserved states
have to be among them, and the number of transitions has to be a 64-bit number. -/
def readSize (s : ByteStream) : Except Failure Nat := do
  let len ← readWord s (.count .len) 0
  let next ← readWord s (.count .next) 8
  let link ← readWord s (.count .link) 16
  let pattern ← readWord s (.count .pattern) 24
  if next ≠ len || link ≠ len || pattern ≠ len then
    throw (.defect (.countsDisagree len next link pattern))
  if len ≤ StateId.root then throw (.defect (.missingRoot len))
  if UInt64.size ≤ 256 * len then throw (.defect (.tooLarge len))
  return len

/-- The table in a payload, before it is checked: the header, four columns, and the end. -/
def readTable (s : ByteStream) : Except Failure Automaton := do
  let n ← readSize s
  let len ← readWords s (.column .len) n 32
  let next ← readWords s (.column .next) (256 * n) (32 + 8 * n)
  let link ← readWords s (.column .link) n (32 + 8 * (257 * n))
  let pattern ← readWords s (.column .pattern) n (32 + 8 * (258 * n))
  if 32 + 8 * (259 * n) < s.bytes.size then throw (.defect .extraData)
  if s.ending ≠ .clean then throw (.ofEnding .trailing s.ending)
  return ofColumns n len next link pattern

/-- The automaton in a payload. -/
def decodePayload (s : ByteStream) : Except Failure Automaton := do
  let a ← readTable s
  match a.defect? with
  | some d => throw (.defect d)
  | none => return a

/-- The automaton in a container. -/
def decode (file : ByteArray) : Except Failure Automaton :=
  decodePayload (Compression.Gzip.expand file)

/-- What writing a container gives notice of. -/
def encodeNotice (a : Automaton) : Notice :=
  .encoded a.size

/-- What reading a container gives notice of. -/
def decodeNotice (a : Automaton) : Notice :=
  .decoded a.size

end PatternScan.Container

import PatternScan.Compression.PrefixCode

/-!
# Expanding deflated data

A deflated stream is a sequence of blocks, each stored, coded with the fixed prefix codes, or coded
with prefix codes of its own. The expansion keeps the output so far beside the position of the next
bit, so that the output before an early end is not lost. Before its first byte the output window is
taken to hold zeros, hence every distance up to the window size can be copied from.
-/

namespace PatternScan.Compression.Inflate

/-- Why an expansion stops before the last block ends. -/
inductive Halt
  /-- The data ends inside a block. -/
  | truncated
  /-- The data is no deflated stream. -/
  | damaged
deriving DecidableEq, Repr

/-- The position of the next bit and the output so far. -/
structure Progress where
  bit : Nat
  output : ByteArray

/-- A step of an expansion, which keeps its progress when it halts. -/
abbrev Step := ExceptT Halt (StateM Progress)

section Bits

variable (data : ByteArray)

/-- The next bit; the low bits of a byte come first. -/
def nextBit : Step Nat := do
  let p ← get
  if h : p.bit / 8 < data.size then
    set { p with bit := p.bit + 1 }
    return (data[p.bit / 8].toNat >>> (p.bit % 8)) % 2
  else throw .truncated

/-- The next `n` bits as a number, the first bit lowest. -/
def nextBits : Nat → Step Nat
  | 0 => return 0
  | n + 1 => do
    let low ← nextBit data
    let high ← nextBits n
    return low + 2 * high

/-- Moves to the next whole byte. -/
def alignToByte : Step Unit :=
  modify fun p => { p with bit := (p.bit + 7) / 8 * 8 }

end Bits

/-! ## Symbols -/

/-- The codes of up to `n` further bits: `value` is the code read so far, `first` the first code of
its length and `skipped` the number of shorter codes. -/
def symbolFrom (data : ByteArray) (code : PrefixCode) : Nat → Nat → Nat → Nat → Step Nat
  | 0, _, _, _ => throw .damaged
  | n + 1, value, first, skipped => do
    let value := 2 * value + (← nextBit data)
    let count := code.counts.getD (PrefixCode.maxLength - n) 0
    if value < first + count then
      match code.symbols[skipped + (value - first)]? with
      | some symbol => return symbol
      | none => throw .damaged
    else symbolFrom data code n value (2 * (first + count)) (skipped + count)

/-- The next symbol of a code. -/
def nextSymbol (data : ByteArray) (code : PrefixCode) : Step Nat :=
  symbolFrom data code PrefixCode.maxLength 0 0 0

/-! ## Output -/

/-- The size of the output window. -/
def windowSize : Nat :=
  32768

/-- Appends one byte. -/
def emit (b : UInt8) : Step Unit :=
  modify fun p => { p with output := p.output.push b }

/-- Appends `n` bytes, each a copy of the byte `distance` back, or zero where there is none. -/
def copyBytes (distance : Nat) : Nat → ByteArray → ByteArray
  | 0, out => out
  | n + 1, out =>
    let b := if h : 0 < distance ∧ distance ≤ out.size then
        out.get (out.size - distance) (by omega)
      else 0
    copyBytes distance n (out.push b)

/-- The base length and the number of extra bits of the length symbols from 257 on. -/
def lengthBases : Array (Nat × Nat) := #[
  (3, 0), (4, 0), (5, 0), (6, 0), (7, 0), (8, 0), (9, 0), (10, 0), (11, 1), (13, 1), (15, 1),
  (17, 1), (19, 2), (23, 2), (27, 2), (31, 2), (35, 3), (43, 3), (51, 3), (59, 3), (67, 4),
  (83, 4), (99, 4), (115, 4), (131, 5), (163, 5), (195, 5), (227, 5), (258, 0)]

/-- The base distance and the number of extra bits of the distance symbols. -/
def distanceBases : Array (Nat × Nat) := #[
  (1, 0), (2, 0), (3, 0), (4, 0), (5, 1), (7, 1), (9, 2), (13, 2), (17, 3), (25, 3), (33, 4),
  (49, 4), (65, 5), (97, 5), (129, 6), (193, 6), (257, 7), (385, 7), (513, 8), (769, 8),
  (1025, 9), (1537, 9), (2049, 10), (3073, 10), (4097, 11), (6145, 11), (8193, 12),
  (12289, 12), (16385, 13), (24577, 13)]

/-- Reads the extra bits of a symbol with the given base. -/
def extended (data : ByteArray) (base : Option (Nat × Nat)) : Step Nat :=
  match base with
  | some (least, extra) => do return least + (← nextBits data extra)
  | none => throw .damaged

/-! ## Blocks -/

/-- The symbols of a coded block up to its end; every symbol takes a bit of `fuel` at least. -/
def codedBlock (data : ByteArray) (literals distances : PrefixCode) : Nat → Step Unit
  | 0 => throw .truncated
  | fuel + 1 => do
    let symbol ← nextSymbol data literals
    if symbol < 256 then
      emit symbol.toUInt8
      codedBlock data literals distances fuel
    else if symbol = 256 then return
    else
      let length ← extended data lengthBases[symbol - 257]?
      let distance ← extended data distanceBases[← nextSymbol data distances]?
      modify fun p => { p with output := copyBytes distance length p.output }
      codedBlock data literals distances fuel

/-- A stored block: its length twice, the second time complemented, then as many bytes. -/
def storedBlock (data : ByteArray) : Step Unit := do
  alignToByte
  let length ← nextBits data 16
  let complement ← nextBits data 16
  if length + complement ≠ 0xFFFF then throw .damaged
  let start := (← get).bit / 8
  modify fun p => { p with
    bit := p.bit + 8 * length
    output := p.output ++ data.extract start (start + length) }
  if data.size < start + length then throw .truncated

/-- The code lengths of the fixed codes. -/
def fixedLiterals : PrefixCode :=
  .ofLengths (Array.replicate 144 8 ++ Array.replicate 112 9 ++ Array.replicate 24 7 ++
    Array.replicate 8 8)

/-- The fixed distance code. -/
def fixedDistances : PrefixCode :=
  .ofLengths (Array.replicate 32 5)

/-- The order in which the lengths of the code length code are written. -/
def lengthOrder : List Nat :=
  [16, 17, 18, 0, 8, 7, 9, 6, 10, 5, 11, 4, 12, 3, 13, 2, 14, 1, 15]

/-- The lengths of the code length code, `n` of them written and the others 0. -/
def metaLengths (data : ByteArray) (n : Nat) : Step (Array Nat) :=
  (lengthOrder.take n).foldlM
    (fun lengths symbol => return lengths.setIfInBounds symbol (← nextBits data 3))
    (Array.replicate 19 0)

/-- The code lengths of a block's own codes, up to `total` of them: a symbol below 16 is a length,
16 repeats the length before, 17 and 18 repeat zero. -/
def codeLengths (data : ByteArray) (code : PrefixCode) (total : Nat) :
    Nat → Array Nat → Step (Array Nat)
  | 0, _ => throw .damaged
  | fuel + 1, lengths => do
    if total ≤ lengths.size then return lengths
    let symbol ← nextSymbol data code
    if symbol < 16 then codeLengths data code total fuel (lengths.push symbol)
    else
      let (value, least, extra) ← match symbol, lengths.back? with
        | 16, none => throw .damaged
        | 16, some last => pure (last, 3, 2)
        | 17, _ => pure (0, 3, 3)
        | _, _ => pure (0, 11, 7)
      let count := least + (← nextBits data extra)
      codeLengths data code total fuel (lengths ++ Array.replicate count value)

/-- The code of the given lengths; a code with more than one symbol has to be complete. -/
def codeOfLengths (lengths : Array Nat) : Step PrefixCode := do
  let code := PrefixCode.ofLengths lengths
  if code.complete || code.used ≤ 1 then return code else throw .damaged

/-- A block with codes of its own. -/
def dynamicBlock (data : ByteArray) (fuel : Nat) : Step Unit := do
  let literalCount := 257 + (← nextBits data 5)
  let distanceCount := 1 + (← nextBits data 5)
  let metaCount := 4 + (← nextBits data 4)
  if 286 < literalCount || 30 < distanceCount then throw .damaged
  let metaCode := PrefixCode.ofLengths (← metaLengths data metaCount)
  if !metaCode.complete then throw .damaged
  let total := literalCount + distanceCount
  let lengths ← codeLengths data metaCode total (total + 1) #[]
  if lengths.size ≠ total then throw .damaged
  let literals ← codeOfLengths (lengths.extract 0 literalCount)
  let distances ← codeOfLengths (lengths.extract literalCount total)
  codedBlock data literals distances fuel

/-- The blocks up to and including the last one; every block takes a bit of `fuel` at least. -/
def blocks (data : ByteArray) : Nat → Step Unit
  | 0 => throw .truncated
  | fuel + 1 => do
    let last ← nextBit data
    match ← nextBits data 2 with
    | 0 => storedBlock data
    | 1 => codedBlock data fixedLiterals fixedDistances (8 * data.size + 1)
    | 2 => dynamicBlock data (8 * data.size + 1)
    | _ => throw .damaged
    if last = 1 then return
    blocks data fuel

/-- Expands the deflated stream at byte `start` of `data`: how it stops, and the progress then. -/
def expand (data : ByteArray) (start : Nat) : Except Halt Unit × Progress :=
  (blocks data (8 * data.size + 1)).run.run { bit := 8 * start, output := .empty }

end PatternScan.Compression.Inflate

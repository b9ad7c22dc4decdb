import PatternScan.ByteStream
import PatternScan.Compression.Crc32
import PatternScan.Compression.Inflate
import PatternScan.LittleEndian

/-!
# Gzip members

A member is a header, a deflated stream and a trailer with checksum and size. `Gzip.expand` reads
the first member of a file as a byte stream: what the deflated data yields is delivered until the
data ends, and what is wrong with header, data or trailer is the stream's fault. `Gzip.pack` writes
a member of stored blocks.
-/

namespace PatternScan.Compression.Gzip

/-- The file breaks off. -/
def brokenOff : Fault :=
  ⟨.unexpectedEnd, "unexpected end of file"⟩

/-- The header is none of a gzip member. -/
def badHeader : Fault :=
  ⟨.invalid, "invalid gzip header"⟩

/-- A name or comment in the header is too long. -/
def fieldTooLong : Fault :=
  ⟨.invalid, "gzip header field too long"⟩

/-- A checksum or size is not that of the data. -/
def badChecksum : Fault :=
  ⟨.invalid, "corrupt gzip stream does not have a matching checksum"⟩

/-- The deflated data is damaged. -/
def badData : Fault :=
  ⟨.invalid, "corrupt deflate stream"⟩

/-! ## Header -/

/-- The byte at an offset. -/
def byteAt (file : ByteArray) (i : Nat) : Except Fault UInt8 :=
  if h : i < file.size then .ok file[i] else .error brokenOff

/-- The two-byte number at an offset, the low byte first. -/
def wordAt (file : ByteArray) (i : Nat) : Except Fault Nat := do
  return (← byteAt file i).toNat + 256 * (← byteAt file (i + 1)).toNat

/-- The offset behind the zero byte that ends a text of at most `room` bytes. -/
def afterText (file : ByteArray) (room i : Nat) : Except Fault Nat :=
  match byteAt file i with
  | .error e => .error e
  | .ok 0 => .ok (i + 1)
  | .ok _ =>
    match room with
    | 0 => .error fieldTooLong
    | room + 1 => afterText file room (i + 1)

/-- The longest name or comment. -/
def maxText : Nat :=
  65535

/-- The offset behind an optional part of the header. -/
def skipIf (present : Bool) (skip : Nat → Except Fault Nat) (i : Nat) : Except Fault Nat :=
  if present then skip i else .ok i

/-- Checks the header at the start of a file and gives the offset of the deflated data. The fixed
part is ten bytes: two magic ones, the method, the flags, and six that are not looked at. -/
def header (file : ByteArray) : Except Fault Nat := do
  if file.size < 10 then throw brokenOff
  let magic ← wordAt file 0
  let method ← byteAt file 2
  let flags ← byteAt file 3
  if magic ≠ 0x8B1F || method ≠ 8 || flags &&& 0xE0 ≠ 0 then throw badHeader
  let i ← skipIf (flags &&& 4 ≠ 0)
    (fun i => do
      let stop := i + 2 + (← wordAt file i)
      if file.size < stop then throw brokenOff
      return stop) 10
  let i ← skipIf (flags &&& 8 ≠ 0) (afterText file maxText) i
  let i ← skipIf (flags &&& 16 ≠ 0) (afterText file maxText) i
  skipIf (flags &&& 2 ≠ 0)
    (fun i => do
      let sum ← wordAt file i
      if sum ≠ (Crc32.checksum (file.extract 0 i)).toNat % 65536 then throw badChecksum
      return i + 2) i

/-! ## Data and trailer -/

/-- The number written in the four bytes from an offset on, the low byte first. -/
def fourBytes (file : ByteArray) (i : Nat) : Except Fault Nat := do
  return (← wordAt file i) + 65536 * (← wordAt file (i + 2))

/-- Compares the trailer at an offset with the data. -/
def trailer (file output : ByteArray) (i : Nat) : Except Fault Unit := do
  let sum ← fourBytes file i
  let size ← fourBytes file (i + 4)
  if sum ≠ (Crc32.checksum output).toNat || size ≠ output.size % UInt32.size then throw badChecksum

/-- The size of the pieces in which a file is read. -/
def pieceSize : Nat :=
  32768

/-- How much of the output is delivered when the data turns out to be damaged. The expansion works
from one full window to the next and from one piece of the file to the next, and the stretch in
which it meets the damage is withheld. -/
def deliveredBeforeDamage (file : ByteArray) (start : Nat) (p : Inflate.Progress) : Nat :=
  let byWindow := (p.output.size - 1) / Inflate.windowSize * Inflate.windowSize
  let piece := (p.bit - 1) / 8 / pieceSize * pieceSize
  let byPiece := (Inflate.expand (file.extract 0 piece) start).2.output.size
  max byWindow byPiece

/-- The first member of a file as a stream of its data. -/
def expand (file : ByteArray) : ByteStream :=
  match header file with
  | .error f => ⟨.empty, .fault f⟩
  | .ok start =>
    match Inflate.expand file start with
    | (.error .truncated, p) => ⟨p.output, .fault brokenOff⟩
    | (.error .damaged, p) =>
      ⟨p.output.extract 0 (deliveredBeforeDamage file start p), .fault badData⟩
    | (.ok (), p) =>
      match trailer file p.output ((p.bit + 7) / 8) with
      | .error f => ⟨p.output, .fault f⟩
      | .ok () => ⟨p.output, .clean⟩

/-! ## Packing -/

/-- The longest stored block. -/
def maxStored : Nat :=
  65535

/-- Appends stored blocks with the data from an offset on; `n` bounds their number. -/
def pushStored (data : ByteArray) : Nat → Nat → ByteArray → ByteArray
  | 0, _, out => out
  | n + 1, start, out =>
    let length := min maxStored (data.size - start)
    let last := data.size ≤ start + length
    let out := out.push (if last then 1 else 0)
    let out := pushLittleEndian 2 (0xFFFF - length) (pushLittleEndian 2 length out)
    let out := out ++ data.extract start (start + length)
    if last then out else pushStored data n (start + length) out

/-- A member that holds the data in stored blocks. -/
def pack (data : ByteArray) : ByteArray :=
  let head : ByteArray := ⟨#[0x1F, 0x8B, 8, 0, 0, 0, 0, 0, 0, 0xFF]⟩
  let out := pushStored data (data.size / maxStored + 1) 0 head
  pushLittleEndian 4 (data.size % UInt32.size) (pushLittleEndian 4 (Crc32.checksum data).toNat out)

end PatternScan.Compression.Gzip

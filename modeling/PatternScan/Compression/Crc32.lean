/-!
# The checksum of gzip

The cyclic redundancy check over the reflected polynomial `0xEDB88320`, a byte at a time.
-/

namespace PatternScan.Compression.Crc32

/-- Divides by the polynomial, `n` bits further. -/
def shift : Nat → UInt32 → UInt32
  | 0, r => r
  | n + 1, r => shift n (if r &&& 1 = 1 then (r >>> 1) ^^^ 0xEDB88320 else r >>> 1)

/-- The remainder of every byte. -/
def table : Vector UInt32 256 :=
  Vector.ofFn fun i => shift 8 (UInt32.ofNat i.val)

/-- The running remainder after one more byte. -/
@[inline] def step (r : UInt32) (b : UInt8) : UInt32 :=
  let i := (r.toUInt8 ^^^ b)
  table.get ⟨i.toNat, i.toNat_lt⟩ ^^^ (r >>> 8)

/-- The checksum of a byte string. -/
def checksum (bytes : ByteArray) : UInt32 :=
  bytes.foldl step 0xFFFFFFFF ^^^ 0xFFFFFFFF

end PatternScan.Compression.Crc32

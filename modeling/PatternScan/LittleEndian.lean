/-!
# Numbers in bytes

Containers and gzip members alike hold their numbers with the low byte first.
-/

namespace PatternScan

/-- The number in the `n` bytes from offset `i` on, the low byte first. -/
def littleEndian (bytes : ByteArray) (i : Nat) : Nat → Nat
  | 0 => 0
  | n + 1 =>
    (if h : i < bytes.size then bytes[i].toNat else 0) + 256 * littleEndian bytes (i + 1) n

/-- Appends the low `n` bytes of a number, the low byte first. -/
def pushLittleEndian : Nat → Nat → ByteArray → ByteArray
  | 0, _, out => out
  | n + 1, value, out => pushLittleEndian n (value / 256) (out.push (value % 256).toUInt8)

end PatternScan

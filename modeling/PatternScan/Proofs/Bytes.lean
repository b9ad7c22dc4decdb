import Mathlib.Algebra.Group.Nat.Defs
import Mathlib.Data.List.Basic
import PatternScan.LittleEndian

/-!
# Byte strings

The bytes of an array are taken as a list, where parts of it are cut out with `take` and `drop`.
`LittleEndian.bytes n` is a number in `n` bytes, the low byte first, and `LittleEndian.number` the
number in bytes. Dropping or taking bytes is division by a power of 256. Numbers are written to an
array as these bytes (`toList_pushLittleEndian`) and read from it as the number in them
(`littleEndian_eq_number`).
-/

namespace PatternScan

theorem length_data_toList (b : ByteArray) : b.data.toList.length = b.size := rfl

theorem toList_extract (b : ByteArray) (i j : Nat) :
    (b.extract i j).data.toList = (b.data.toList.take j).drop i := by
  rw [ByteArray.data_extract, Array.toList_extract, List.extract_eq_take_drop, List.drop_take]

theorem toList_extract_add (b : ByteArray) (i length : Nat) :
    (b.extract i (i + length)).data.toList = (b.data.toList.drop i).take length := by
  rw [toList_extract, List.drop_take, Nat.add_sub_cancel_left]

theorem length_drop_of_append {α : Type} {xs ys zs : List α} {k : Nat}
    (h : xs.drop k = ys ++ zs) : xs.drop (k + ys.length) = zs := by
  rw [← List.drop_drop, h, List.drop_left]

namespace LittleEndian

/-- The low `n` bytes of a number, the low byte first. -/
def bytes : Nat → Nat → List UInt8
  | 0, _ => []
  | n + 1, value => (value % 256).toUInt8 :: bytes n (value / 256)

/-- The number with the given bytes, the low byte first. -/
def number : List UInt8 → Nat
  | [] => 0
  | b :: bs => b.toNat + 256 * number bs

@[simp] theorem length_bytes (n value : Nat) : (bytes n value).length = n := by
  induction n generalizing value with
  | zero => rfl
  | succ n ih => rw [bytes, List.length_cons, ih]

theorem number_bytes {n value : Nat} (h : value < 256 ^ n) : number (bytes n value) = value := by
  induction n generalizing value with
  | zero => exact (Nat.lt_one_iff.1 h).symm
  | succ n ih =>
    have hdiv : value / 256 < 256 ^ n := Nat.div_lt_of_lt_mul (by rwa [← Nat.pow_succ'])
    have hmod : (value % 256).toUInt8.toNat = value % 256 :=
      UInt8.toNat_ofNat_of_lt (Nat.mod_lt _ (by decide))
    rw [bytes, number, ih hdiv, hmod]
    exact Nat.mod_add_div value 256

theorem bytes_number {bs : List UInt8} {n : Nat} (h : bs.length = n) :
    bytes n (number bs) = bs := by
  subst h
  induction bs with
  | nil => rfl
  | cons b bs ih =>
    have hb : b.toNat < 256 := b.toNat_lt
    have hmod : (b.toNat + 256 * number bs) % 256 = b.toNat := by omega
    have hdiv : (b.toNat + 256 * number bs) / 256 = number bs := by omega
    rw [List.length_cons, bytes, number, hmod, hdiv, ih]
    exact congrArg (· :: bs) UInt8.ofNat_toNat

theorem number_drop (bs : List UInt8) (k : Nat) : number (bs.drop k) = number bs / 256 ^ k := by
  induction k generalizing bs with
  | zero => rw [List.drop_zero, Nat.pow_zero, Nat.div_one]
  | succ k ih =>
    cases bs with
    | nil => rw [List.drop_nil, number, Nat.zero_div]
    | cons b bs =>
      have hb : b.toNat < 256 := b.toNat_lt
      have hdiv : (b.toNat + 256 * number bs) / 256 = number bs := by omega
      rw [List.drop_succ_cons, ih, number, Nat.pow_succ', ← Nat.div_div_eq_div_mul, hdiv]

theorem number_take (bs : List UInt8) (k : Nat) : number (bs.take k) = number bs % 256 ^ k := by
  induction k generalizing bs with
  | zero => rw [List.take_zero, number, Nat.pow_zero, Nat.mod_one]
  | succ k ih =>
    cases bs with
    | nil => rw [List.take_nil, number, Nat.zero_mod]
    | cons b bs =>
      have hb : b.toNat < 256 := b.toNat_lt
      have hmod : (b.toNat + 256 * number bs) % 256 = b.toNat := by omega
      have hdiv : (b.toNat + 256 * number bs) / 256 = number bs := by omega
      rw [List.take_succ_cons, number, ih, number, Nat.pow_succ', Nat.mod_mul, hmod, hdiv]

end LittleEndian

/-! ## Numbers in arrays -/

theorem littleEndian_eq_number {bytes : ByteArray} {i n : Nat} (h : i + n ≤ bytes.size) :
    littleEndian bytes i n = LittleEndian.number ((bytes.data.toList.drop i).take n) := by
  induction n generalizing i with
  | zero => rfl
  | succ n ih =>
    have hi : i < bytes.data.toList.length := show i < bytes.size by omega
    rw [littleEndian, dif_pos (show i < bytes.size from hi), ih (by omega),
      List.drop_eq_getElem_cons hi, List.take_succ_cons, LittleEndian.number]
    rfl

/-- Bytes in front of a cut are read as before. -/
theorem littleEndian_extract {bytes : ByteArray} {k i n : Nat} (h : i + n ≤ k)
    (hk : k ≤ bytes.size) : littleEndian (bytes.extract 0 k) i n = littleEndian bytes i n := by
  have hle : i + n ≤ (bytes.extract 0 k).size := by
    rw [ByteArray.size_extract]
    omega
  rw [littleEndian_eq_number hle, littleEndian_eq_number (Nat.le_trans h hk), toList_extract,
    List.drop_zero, List.drop_take, List.take_take, Nat.min_eq_left (by omega)]

theorem littleEndian_lt (bytes : ByteArray) (i n : Nat) : littleEndian bytes i n < 256 ^ n := by
  induction n generalizing i with
  | zero => exact Nat.one_pos
  | succ n ih =>
    have hrest := ih (i + 1)
    have hbyte : (if h : i < bytes.size then bytes[i].toNat else 0) < 256 := by
      split
      · exact UInt8.toNat_lt _
      · decide
    unfold littleEndian
    rw [Nat.pow_succ]
    omega

theorem toList_pushLittleEndian (n value : Nat) (out : ByteArray) :
    (pushLittleEndian n value out).data.toList = out.data.toList ++ LittleEndian.bytes n value := by
  induction n generalizing value out with
  | zero => exact (List.append_nil _).symm
  | succ n ih =>
    rw [pushLittleEndian, ih, LittleEndian.bytes, ByteArray.data_push, Array.toList_push,
      List.append_assoc]
    rfl

end PatternScan

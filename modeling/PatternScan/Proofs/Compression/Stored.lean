import PatternScan.Compression.Gzip
import PatternScan.Proofs.Bytes

/-!
# Packing loses nothing

`expand_pack`: a packed file is expanded to its data and ends cleanly. A step of the expansion that
succeeds is described by `Yields`; bits are read out of the number that all bytes of the file form,
so that reading whole bytes is reading out of a part of the file (`yields_nextBits_byte`).
-/

namespace PatternScan.Compression

open LittleEndian (number bytes length_bytes number_bytes number_drop number_take)

namespace Inflate

/-! ## Steps -/

section Yields

variable {α β : Type} {p p' p'' : Progress}

/-- A step from the progress `p` succeeds with the value `x` and the progress `p'`. -/
def Yields (m : Step α) (p : Progress) (x : α) (p' : Progress) : Prop :=
  m.run.run p = (.ok x, p')

theorem Yields.bind {m : Step α} {f : α → Step β} {x : α} {y : β} (h : Yields m p x p')
    (h' : Yields (f x) p' y p'') : Yields (m >>= f) p y p'' := by
  unfold Yields
  rw [ExceptT.run_bind, StateT.run_bind, h]
  exact h'

theorem yields_pure (x : α) : Yields (pure x) p x p := rfl

theorem yields_get : Yields get p p p := rfl

theorem yields_set : Yields (set p') p () p' := rfl

theorem yields_modify (f : Progress → Progress) : Yields (modify f) p () (f p) := rfl

end Yields

/-! ## Bits -/

section Bits

variable (data : ByteArray) {p : Progress}

theorem number_getElem {i : Nat} (h : i < data.size) :
    data[i].toNat = number data.data.toList / 256 ^ i % 256 := by
  have hi : i < data.data.toList.length := h
  have hone := number_take (data.data.toList.drop i) 1
  rw [List.drop_eq_getElem_cons hi, List.take_succ_cons, List.take_zero,
    ← List.drop_eq_getElem_cons hi, number_drop, Nat.pow_one] at hone
  exact hone

/-- A bit of a number is a bit of one of its bytes. -/
theorem bit_of_byte (m b : Nat) : m / 256 ^ (b / 8) % 256 / 2 ^ (b % 8) % 2 = m / 2 ^ b % 2 := by
  have hr : b % 8 < 8 := Nat.mod_lt b (by decide)
  have hsplit : 256 = 2 ^ (b % 8) * 2 ^ (8 - b % 8) := by
    rw [← Nat.pow_add, Nat.add_sub_cancel' (Nat.le_of_lt hr)]
  have hdvd : 2 ∣ 2 ^ (8 - b % 8) := Nat.pow_dvd_pow 2 (show 1 ≤ 8 - b % 8 by omega)
  have hpow : 2 ^ b = 256 ^ (b / 8) * 2 ^ (b % 8) := by
    rw [show 256 = 2 ^ 8 by rfl, ← Nat.pow_mul, ← Nat.pow_add, Nat.div_add_mod]
  rw [hpow, ← Nat.div_div_eq_div_mul]
  generalize m / 256 ^ (b / 8) = k
  rw [hsplit, Nat.mod_mul_right_div_self, Nat.mod_mod_of_dvd _ hdvd]

theorem yields_nextBit (h : p.bit / 8 < data.size) : Yields (nextBit data) p
    (number data.data.toList / 2 ^ p.bit % 2) { p with bit := p.bit + 1 } := by
  have hbit : (data[p.bit / 8].toNat >>> (p.bit % 8)) % 2 =
      number data.data.toList / 2 ^ p.bit % 2 := by
    rw [Nat.shiftRight_eq_div_pow, number_getElem, bit_of_byte]
  rw [← hbit]
  apply yields_get.bind
  rw [dif_pos h]
  exact yields_set.bind (yields_pure _)

theorem yields_nextBits {n : Nat} (h : p.bit + n ≤ 8 * data.size) : Yields (nextBits data n) p
    (number data.data.toList / 2 ^ p.bit % 2 ^ n) { p with bit := p.bit + n } := by
  induction n generalizing p with
  | zero =>
    rw [Nat.pow_zero, Nat.mod_one]
    exact yields_pure 0
  | succ n ih =>
    have hlow := yields_nextBit data (p := p) (by omega)
    have hhigh := ih (p := { p with bit := p.bit + 1 }) (by simp only; omega)
    have hvalue : number data.data.toList / 2 ^ p.bit % 2 ^ (n + 1) =
        number data.data.toList / 2 ^ p.bit % 2 +
          2 * (number data.data.toList / 2 ^ (p.bit + 1) % 2 ^ n) := by
      rw [Nat.pow_succ', Nat.mod_mul, Nat.pow_succ, Nat.div_div_eq_div_mul]
    rw [hvalue, show p.bit + (n + 1) = p.bit + 1 + n by omega]
    exact hlow.bind (hhigh.bind (yields_pure _))

/-- At the start of a byte the bits come out of the bytes from there on. -/
theorem yields_nextBits_byte {n k : Nat} {out : ByteArray} (h : 8 * k + n ≤ 8 * data.size) :
    Yields (nextBits data n) ⟨8 * k, out⟩ (number (data.data.toList.drop k) % 2 ^ n)
      ⟨8 * k + n, out⟩ := by
  have hbits := yields_nextBits data (p := ⟨8 * k, out⟩) h
  rwa [Nat.pow_mul, show 2 ^ 8 = 256 by rfl, ← number_drop] at hbits

end Bits

/-! ## Stored blocks -/

theorem yields_alignToByte {k : Nat} {out : ByteArray} :
    Yields alignToByte ⟨8 * k + 3, out⟩ () ⟨8 * (k + 1), out⟩ := by
  have hbit : (8 * k + 3 + 7) / 8 * 8 = 8 * (k + 1) := by omega
  rw [← hbit]
  exact yields_modify _

/-- The two bytes of a number are read back as sixteen bits. -/
theorem yields_sixteen {data out : ByteArray} {k value : Nat} {rest : List UInt8}
    (h : data.data.toList.drop k = bytes 2 value ++ rest) (hvalue : value < 2 ^ 16) :
    Yields (nextBits data 16) ⟨8 * k, out⟩ value ⟨8 * (k + 2), out⟩ := by
  have hlen := congrArg List.length h
  rw [List.length_drop, List.length_append, length_bytes] at hlen
  have hsize := length_data_toList data
  have hbits := @yields_nextBits_byte data 16 k out (by omega)
  have hnumber : number (data.data.toList.drop k) % 2 ^ 16 = value := by
    rw [show 2 ^ 16 = 256 ^ 2 by rfl, ← number_take, h, List.take_left' (length_bytes 2 value),
      number_bytes hvalue]
  rwa [hnumber, show 8 * k + 16 = 8 * (k + 2) by omega] at hbits

/-- A stored block behind its three bits, from the first byte `b` of the block on. -/
theorem yields_storedBlock {data out out' : ByteArray} {k length : Nat} {b : UInt8}
    {chunk rest : List UInt8}
    (h : data.data.toList.drop k =
      b :: (bytes 2 length ++ (bytes 2 (0xFFFF - length) ++ (chunk ++ rest))))
    (hlength : length ≤ 0xFFFF) (hchunk : chunk.length = length)
    (hout : out'.data.toList = out.data.toList ++ chunk) :
    Yields (storedBlock data) ⟨8 * k + 3, out⟩ () ⟨8 * (k + 5 + length), out'⟩ ∧
      data.data.toList.drop (k + 5 + length) = rest := by
  have h₁ : data.data.toList.drop (k + 1) =
      bytes 2 length ++ (bytes 2 (0xFFFF - length) ++ (chunk ++ rest)) := by
    rw [← List.drop_drop, h, List.drop_succ_cons, List.drop_zero]
  have h₃ : data.data.toList.drop (k + 3) = bytes 2 (0xFFFF - length) ++ (chunk ++ rest) := by
    rw [← length_drop_of_append h₁, length_bytes]
  have h₅ : data.data.toList.drop (k + 5) = chunk ++ rest := by
    rw [← length_drop_of_append h₃, length_bytes]
  have hsize : k + 5 + length ≤ data.size := by
    have hlen := congrArg List.length h
    simp only [List.length_drop, List.length_cons, List.length_append, length_bytes,
      length_data_toList] at hlen
    omega
  have hout' : out ++ data.extract (k + 5) (k + 5 + length) = out' := by
    refine ByteArray.ext (Array.toList_inj.1 ?_)
    rw [ByteArray.data_append, Array.toList_append, toList_extract_add, h₅,
      List.take_left' hchunk, hout]
  refine ⟨?_, by rw [← length_drop_of_append h₅, hchunk]⟩
  refine yields_alignToByte.bind ((yields_sixteen h₁ (by omega)).bind ?_)
  apply (yields_sixteen h₃ (by omega)).bind
  rw [if_neg (by omega)]
  refine yields_get.bind ((yields_modify _).bind ?_)
  have hstart : 8 * (k + 3 + 2) / 8 = k + 5 := by omega
  have hend : 8 * (k + 3 + 2) + 8 * length = 8 * (k + 5 + length) := by omega
  simp only [hstart, hend, hout']
  rw [if_neg (by omega)]
  exact yields_pure ()

/-- The first three bits of a stored block: whether it is the last one, and that it is stored. -/
theorem yields_blockHead {data out : ByteArray} {k : Nat} {b : UInt8} {rest : List UInt8}
    (h : data.data.toList.drop k = b :: rest) (hb : b.toNat ≤ 1) :
    Yields (nextBit data) ⟨8 * k, out⟩ b.toNat ⟨8 * k + 1, out⟩ ∧
      Yields (nextBits data 2) ⟨8 * k + 1, out⟩ 0 ⟨8 * k + 3, out⟩ := by
  have hsize : k < data.size := by
    have hlen := congrArg List.length h
    simp only [List.length_drop, List.length_cons, length_data_toList] at hlen
    omega
  have hnumber : number data.data.toList / 2 ^ (8 * k) = b.toNat + 256 * number rest := by
    rw [Nat.pow_mul, show 2 ^ 8 = 256 by rfl, ← number_drop, h, number]
  have hbit := yields_nextBit data (p := ⟨8 * k, out⟩) (by simp only; omega)
  have hbits := yields_nextBits data (p := ⟨8 * k + 1, out⟩) (n := 2) (by simp only; omega)
  simp only [Nat.pow_succ 2 (8 * k), ← Nat.div_div_eq_div_mul, hnumber] at hbit hbits
  rw [show (b.toNat + 256 * number rest) % 2 = b.toNat by omega] at hbit
  rw [show (b.toNat + 256 * number rest) / 2 % 2 ^ 2 = 0 by omega] at hbits
  exact ⟨hbit, hbits⟩

end Inflate

namespace Gzip

open Inflate

/-- How many bytes of the data go into the block that starts at an offset. -/
def blockLength (data : ByteArray) (start : Nat) : Nat :=
  min maxStored (data.size - start)

theorem blockLength_le (data : ByteArray) (start : Nat) : blockLength data start ≤ maxStored :=
  Nat.min_le_left _ _

theorem add_blockLength_le {data : ByteArray} {start : Nat} (h : start ≤ data.size) :
    start + blockLength data start ≤ data.size := by
  unfold blockLength
  omega

/-- A block that is not the last one is full. -/
theorem blockLength_of_lt {data : ByteArray} {start : Nat}
    (h : start + blockLength data start < data.size) : blockLength data start = maxStored := by
  unfold blockLength at h ⊢
  omega

/-- The bytes of the stored blocks with the data from an offset on. -/
def storedBytes (data : ByteArray) : Nat → Nat → List UInt8
  | 0, _ => []
  | n + 1, start =>
    let length := blockLength data start
    let last := data.size ≤ start + length
    (if last then 1 else 0) :: (bytes 2 length ++ (bytes 2 (0xFFFF - length) ++
      ((data.data.toList.drop start).take length ++
        if last then [] else storedBytes data n (start + length))))

theorem toList_pushStored (data : ByteArray) (n start : Nat) (out : ByteArray) :
    (pushStored data n start out).data.toList = out.data.toList ++ storedBytes data n start := by
  induction n generalizing start out with
  | zero => exact (List.append_nil _).symm
  | succ n ih =>
    rw [pushStored, storedBytes, blockLength]
    generalize min maxStored (data.size - start) = length
    split
    · rw [ByteArray.data_append, Array.toList_append, toList_extract_add, toList_pushLittleEndian,
        toList_pushLittleEndian, ByteArray.data_push, Array.toList_push]
      simp
    · rw [ih, ByteArray.data_append, Array.toList_append, toList_extract_add,
        toList_pushLittleEndian, toList_pushLittleEndian, ByteArray.data_push, Array.toList_push]
      simp

/-- A block whose three bits say that it is stored is expanded as a stored block. -/
theorem yields_blocks_succ {file out out' : ByteArray} {fuel k k' : Nat} {b : UInt8}
    {rest : List UInt8} {p : Progress} (h : file.data.toList.drop k = b :: rest) (hb : b.toNat ≤ 1)
    (hstored : Yields (storedBlock file) ⟨8 * k + 3, out⟩ () ⟨8 * k', out'⟩)
    (hrest : Yields (if b.toNat = 1 then pure () else blocks file fuel) ⟨8 * k', out'⟩ () p) :
    Yields (blocks file (fuel + 1)) ⟨8 * k, out⟩ () p := by
  obtain ⟨hlast, htype⟩ := @yields_blockHead file out k b rest h hb
  unfold blocks
  exact hlast.bind (htype.bind (hstored.bind hrest))

theorem yields_blocks {file data : ByteArray} {n fuel start k : Nat} {rest : List UInt8}
    (h : file.data.toList.drop k = storedBytes data n start ++ rest) (hstart : start ≤ data.size)
    (hn : data.size < start + maxStored * n) (hfuel : n ≤ fuel) :
    Yields (blocks file fuel) ⟨8 * k, data.extract 0 start⟩ ()
      ⟨8 * (k + (storedBytes data n start).length), data⟩ := by
  induction n generalizing fuel start k with
  | zero => omega
  | succ n ih =>
    obtain ⟨fuel, rfl⟩ : ∃ m, fuel = m + 1 := ⟨fuel - 1, by omega⟩
    unfold storedBytes at h ⊢
    have hmax : blockLength data start ≤ 0xFFFF := blockLength_le data start
    have hle := add_blockLength_le hstart
    have hfull := @blockLength_of_lt data start
    generalize blockLength data start = length at *
    have hsize := length_data_toList data
    have hchunk : ((data.data.toList.drop start).take length).length = length := by
      simp only [List.length_take, List.length_drop]
      omega
    have hout : (data.extract 0 (start + length)).data.toList =
        (data.extract 0 start).data.toList ++ (data.data.toList.drop start).take length := by
      rw [← Nat.zero_add (start + length), toList_extract_add, ← Nat.zero_add start,
        toList_extract_add, Nat.zero_add, List.drop_zero, List.take_add]
    rw [List.cons_append] at h
    simp only [List.append_assoc] at h
    obtain ⟨hstored, hdrop⟩ := yields_storedBlock h hmax hchunk hout
    by_cases hlast : data.size ≤ start + length
    · have hall : data.extract 0 (start + length) = data := by
        refine ByteArray.ext (Array.toList_inj.1 ?_)
        rw [← Nat.zero_add (start + length), toList_extract_add, List.drop_zero,
          List.take_of_length_le (by omega)]
      rw [hall] at hstored
      simp only [if_pos hlast] at h hdrop ⊢
      apply yields_blocks_succ h (by decide) hstored
      simp only [List.length_cons, List.length_append, length_bytes, hchunk, List.append_nil]
      rw [if_pos (by decide), show k + (2 + (2 + length) + 1) = k + 5 + length by omega]
      exact yields_pure ()
    · simp only [if_neg hlast] at h hdrop ⊢
      apply yields_blocks_succ h (by decide) hstored
      have hlen := hfull (Nat.lt_of_not_le hlast)
      rw [Nat.mul_succ] at hn
      have hrest := ih hdrop hle (by omega) (Nat.le_of_succ_le_succ hfuel)
      simp only [List.length_cons, List.length_append, length_bytes, hchunk]
      generalize (storedBytes data n (start + length)).length = m at hrest ⊢
      rw [if_neg (by decide), show k + (2 + (2 + (length + m)) + 1) = k + 5 + length + m by omega]
      exact hrest

theorem size_le_storedBytes {data : ByteArray} {n start : Nat}
    (hn : data.size < start + maxStored * n) :
    data.size ≤ start + (storedBytes data n start).length := by
  induction n generalizing start with
  | zero => omega
  | succ n ih =>
    unfold storedBytes
    rw [Nat.mul_succ] at hn
    have hsize := length_data_toList data
    have hle : blockLength data start ≤ data.size - start := Nat.min_le_right _ _
    have hfull := @blockLength_of_lt data start
    by_cases hlast : data.size ≤ start + blockLength data start
    · simp only [if_pos hlast, List.length_cons, List.length_append, List.length_take,
        List.length_drop, length_bytes, hsize]
      omega
    · have hlen := hfull (Nat.lt_of_not_le hlast)
      have hrest := @ih (start + blockLength data start) (by omega)
      simp only [if_neg hlast, List.length_cons, List.length_append, List.length_take,
        List.length_drop, length_bytes, hsize]
      omega

/-! ## Header and trailer -/

section File

variable {file : ByteArray} {i : Nat} {rest : List UInt8}

theorem byteAt_eq {b : UInt8} (h : file.data.toList.drop i = b :: rest) :
    byteAt file i = .ok b := by
  have hi : i < file.data.toList.length := by
    have hlen := congrArg List.length h
    rw [List.length_drop, List.length_cons] at hlen
    omega
  rw [List.drop_eq_getElem_cons hi] at h
  unfold byteAt
  rw [dif_pos (show i < file.size from hi), ← (List.cons.inj h).1]
  rfl

theorem wordAt_eq {b c : UInt8} (h : file.data.toList.drop i = b :: c :: rest) :
    wordAt file i = .ok (b.toNat + 256 * c.toNat) := by
  have hnext : file.data.toList.drop (i + 1) = c :: rest := by
    rw [← List.drop_drop, h, List.drop_succ_cons, List.drop_zero]
  unfold wordAt
  rw [byteAt_eq h, byteAt_eq hnext]
  rfl

theorem fourBytes_eq {value : Nat} (h : file.data.toList.drop i = bytes 4 value ++ rest)
    (hvalue : value < UInt32.size) : fourBytes file i = .ok value := by
  have hnumber := number_bytes (n := 4) hvalue
  simp only [bytes, List.cons_append, List.nil_append, number] at h hnumber
  have hnext := length_drop_of_append (show file.data.toList.drop i = [_, _] ++ _ from h)
  have hhigh : wordAt file (i + 2) = .ok _ := wordAt_eq hnext
  unfold fourBytes
  rw [wordAt_eq h, hhigh]
  apply congrArg Except.ok
  omega

theorem trailer_eq {output : ByteArray}
    (h : file.data.toList.drop i =
      bytes 4 (Crc32.checksum output).toNat ++ bytes 4 (output.size % UInt32.size)) :
    trailer file output i = .ok () := by
  have hsum := fourBytes_eq h (Crc32.checksum output).toNat_lt
  have hnext : file.data.toList.drop (i + 4) = bytes 4 (output.size % UInt32.size) ++ [] := by
    rw [List.append_nil, ← length_drop_of_append h, length_bytes]
  have hsize := fourBytes_eq hnext (Nat.mod_lt _ (by decide))
  unfold trailer
  rw [hsum, hsize]
  simp [bind, Except.bind, pure, Except.pure]

theorem header_eq (h : file.data.toList = [0x1F, 0x8B, 8, 0, 0, 0, 0, 0, 0, 0xFF] ++ rest) :
    header file = .ok 10 := by
  have hsize : ¬file.size < 10 := by
    have hlen := congrArg List.length h
    simp only [List.length_append, List.length_cons, List.length_nil,
      length_data_toList] at hlen
    omega
  have hdrop : ∀ k, file.data.toList.drop k =
      ([0x1F, 0x8B, 8, 0, 0, 0, 0, 0, 0, 0xFF] ++ rest).drop k := fun k => by rw [h]
  have hmagic : wordAt file 0 = .ok 0x8B1F := wordAt_eq (hdrop 0)
  have hmethod : byteAt file 2 = .ok 8 := byteAt_eq (hdrop 2)
  have hflags : byteAt file 3 = .ok 0 := byteAt_eq (hdrop 3)
  unfold header
  rw [if_neg hsize, hmagic, hmethod, hflags]
  rfl

end File

/-- **Packing loses nothing.** -/
theorem expand_pack (data : ByteArray) : expand (pack data) = ⟨data, .clean⟩ := by
  have hfile : (pack data).data.toList = [0x1F, 0x8B, 8, 0, 0, 0, 0, 0, 0, 0xFF] ++
      (storedBytes data (data.size / maxStored + 1) 0 ++
        (bytes 4 (Crc32.checksum data).toNat ++ bytes 4 (data.size % UInt32.size))) := by
    unfold pack
    rw [toList_pushLittleEndian, toList_pushLittleEndian, toList_pushStored]
    simp only [List.append_assoc]
  have hn : data.size < 0 + maxStored * (data.size / maxStored + 1) := by
    rw [Nat.zero_add]
    exact Nat.lt_mul_div_succ data.size (by decide)
  have hstored : (pack data).data.toList.drop 10 =
      storedBytes data (data.size / maxStored + 1) 0 ++
        (bytes 4 (Crc32.checksum data).toNat ++ bytes 4 (data.size % UInt32.size)) := by
    rw [hfile]
    rfl
  have hfuel : data.size / maxStored + 1 ≤ 8 * (pack data).size + 1 := by
    have hbytes := size_le_storedBytes hn
    have hsize := congrArg List.length hfile
    have hdiv := Nat.div_le_self data.size maxStored
    simp only [List.length_append, length_data_toList] at hsize
    omega
  have htrailer := length_drop_of_append hstored
  have hblocks := yields_blocks hstored (Nat.zero_le _) hn hfuel
  have hempty : data.extract 0 0 = .empty := by
    refine ByteArray.ext (Array.toList_inj.1 ?_)
    rw [toList_extract_add data 0 0, List.take_zero]
    rfl
  rw [hempty] at hblocks
  generalize (storedBytes data (data.size / maxStored + 1) 0).length = m at htrailer hblocks
  have hexpand : Inflate.expand (pack data) 10 = (.ok (), ⟨8 * (10 + m), data⟩) := hblocks
  have hend : (8 * (10 + m) + 7) / 8 = 10 + m := by omega
  unfold expand
  rw [header_eq hfile]
  simp only [hexpand, hend, trailer_eq htrailer]

end Gzip

end PatternScan.Compression

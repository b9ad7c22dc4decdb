/-!
# Reading bytes as text

`Utf8.pieces` cuts a byte string into the encoded characters and the damaged stretches between them;
a damaged stretch is the longest start of a well-formed sequence, or one byte. `Utf8.decode?`
accepts byte strings without damage, `Utf8.decodeLossy` puts a replacement character in its place.
-/

namespace PatternScan.Text.Utf8

/-- A part of a byte string: an encoded character, or bytes that encode none. -/
inductive Piece
  | char (c : Char)
  | damaged
deriving DecidableEq, Repr

/-- A continuation byte. -/
def isTail (b : UInt8) : Bool :=
  0x80 ≤ b && b ≤ 0xBF

/-- What a lead byte announces: the number of continuation bytes, the range of the first of them,
and the bits the lead byte contributes. The narrowed ranges keep out overlong forms, surrogates and
numbers past the last code point. -/
def lead? (b : UInt8) : Option (Nat × UInt8 × UInt8 × Nat) :=
  if 0xC2 ≤ b && b ≤ 0xDF then some (1, 0x80, 0xBF, b.toNat - 0xC0)
  else if b = 0xE0 then some (2, 0xA0, 0xBF, 0)
  else if b = 0xED then some (2, 0x80, 0x9F, 0xD)
  else if 0xE1 ≤ b && b ≤ 0xEF then some (2, 0x80, 0xBF, b.toNat - 0xE0)
  else if b = 0xF0 then some (3, 0x90, 0xBF, 0)
  else if 0xF1 ≤ b && b ≤ 0xF3 then some (3, 0x80, 0xBF, b.toNat - 0xF0)
  else if b = 0xF4 then some (3, 0x80, 0x8F, 4)
  else none

/-- Reads `n` further continuation bytes onto the bits `acc`: the code point if all are there, and
the bytes after those that were read. -/
def tails : Nat → Nat → List UInt8 → Option Nat × List UInt8
  | 0, acc, bs => (some acc, bs)
  | _ + 1, _, [] => (none, [])
  | n + 1, acc, b :: bs =>
    if isTail b then tails n (acc * 64 + (b.toNat - 0x80)) bs else (none, b :: bs)

/-- The piece at the start of `b :: bs`, and the bytes after it. -/
def piece (b : UInt8) (bs : List UInt8) : Piece × List UInt8 :=
  if b < 0x80 then (.char (Char.ofNat b.toNat), bs)
  else match lead? b, bs with
    | some (n, lo, hi, acc), c :: rest =>
      if lo ≤ c && c ≤ hi then
        match tails (n - 1) (acc * 64 + (c.toNat - 0x80)) rest with
        | (some code, rest) => (.char (Char.ofNat code), rest)
        | (none, rest) => (.damaged, rest)
      else (.damaged, c :: rest)
    | _, bs => (.damaged, bs)

theorem length_tails_le (n acc : Nat) (bs : List UInt8) :
    (tails n acc bs).2.length ≤ bs.length := by
  induction bs generalizing n acc with
  | nil => cases n <;> simp [tails]
  | cons b bs ih =>
    cases n with
    | zero => simp [tails]
    | succ n =>
      unfold tails
      split
      · exact Nat.le_succ_of_le (ih n _)
      · exact Nat.le_refl _

theorem length_piece_le (b : UInt8) (bs : List UInt8) :
    (piece b bs).2.length ≤ bs.length := by
  unfold piece
  split
  · exact Nat.le_refl _
  · split
    · rename_i n lo hi acc c rest _
      split
      · have := length_tails_le (n - 1) (acc * 64 + (c.toNat - 0x80)) rest
        split <;> rename_i heq <;> rw [heq] at this <;> exact Nat.le_succ_of_le this
      · exact Nat.le_refl _
    · exact Nat.le_refl _

/-- The pieces of a byte string, in order. -/
def pieces : List UInt8 → List Piece
  | [] => []
  | b :: bs =>
    have := length_piece_le b bs
    (piece b bs).1 :: pieces (piece b bs).2
termination_by bs => bs.length
decreasing_by simp only [List.length_cons]; omega

/-- The text of a byte string without damage. -/
def decode? (bs : List UInt8) : Option (List Char) :=
  (pieces bs).mapM fun
    | .char c => some c
    | .damaged => none

/-- The text of a byte string, with a replacement character for every damaged stretch. -/
def decodeLossy (bs : List UInt8) : List Char :=
  (pieces bs).map fun
    | .char c => c
    | .damaged => '\uFFFD'

/-- The bytes of a text. -/
def encode (cs : List Char) : List UInt8 :=
  cs.flatMap String.utf8EncodeChar

end PatternScan.Text.Utf8

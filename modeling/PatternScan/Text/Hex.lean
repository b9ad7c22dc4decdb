import PatternScan.Text.Quoted

/-!
# Hexadecimal byte strings

Two digits a byte, in either case. `Hex.decode` works on the bytes of the written form, so a digit
position is a byte offset.
-/

namespace PatternScan.Text.Hex

/-- Why a byte string is no hexadecimal form. -/
inductive Defect
  | oddLength
  /-- The first byte that is no digit, and its offset. -/
  | invalidByte (byte : UInt8) (position : Nat)
deriving DecidableEq, Repr

/-- The text of a defect; the offending byte is shown as the character of its number. -/
def Defect.message : Defect → String
  | oddLength => "Odd number of digits"
  | invalidByte byte position =>
    s!"Invalid character {quoteChar (Char.ofNat byte.toNat)} at position {position}"

/-- The value of a digit. -/
def digit? (b : UInt8) : Option UInt8 :=
  if 0x30 ≤ b && b ≤ 0x39 then some (b - 0x30)
  else if 0x41 ≤ b && b ≤ 0x46 then some (b - 0x37)
  else if 0x61 ≤ b && b ≤ 0x66 then some (b - 0x57)
  else none

/-- Reads pairs of digits; the first of them stands at `offset`. -/
def decodePairs (offset : Nat) : List UInt8 → Except Defect (List UInt8)
  | [] => .ok []
  | [_] => .error .oddLength
  | hi :: lo :: rest =>
    match digit? hi, digit? lo with
    | none, _ => .error (.invalidByte hi offset)
    | some _, none => .error (.invalidByte lo (offset + 1))
    | some h, some l => do
      let bytes ← decodePairs (offset + 2) rest
      return (h * 16 + l) :: bytes

/-- The bytes a hexadecimal form stands for. The length is checked before the digits. -/
def decode (text : List UInt8) : Except Defect (List UInt8) :=
  if text.length % 2 = 1 then .error .oddLength else decodePairs 0 text

/-- The lower-case digit of a number below 16. -/
def digit (n : UInt8) : Char :=
  if n < 10 then Char.ofNat (0x30 + n.toNat) else Char.ofNat (0x57 + n.toNat)

/-- The lower-case hexadecimal form of a byte string. -/
def encode (bytes : List UInt8) : String :=
  String.ofList (bytes.flatMap fun b => [digit (b / 16), digit (b % 16)])

end PatternScan.Text.Hex

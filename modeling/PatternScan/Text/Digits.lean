/-!
# Numbers in digits

Natural numbers written in the digits of a base up to 16.
-/

namespace PatternScan.Text

/-- The value of a digit in bases up to 16. -/
def digit? (base : Nat) (c : Char) : Option Nat :=
  let d :=
    if '0' ≤ c && c ≤ '9' then c.toNat - 0x30
    else if 'a' ≤ c && c ≤ 'f' then c.toNat - 0x57
    else if 'A' ≤ c && c ≤ 'F' then c.toNat - 0x37
    else base
  if d < base then some d else none

/-- The number that digits stand for, without any digit none. -/
def natural? (base : Nat) (cs : List Char) : Option Nat :=
  if cs.isEmpty then none
  else cs.foldlM (fun n c => (digit? base c).map (base * n + ·)) 0

/-- The number below 2^64 that decimal digits stand for; a plus sign may stand before them. -/
def word? (s : String) : Option Nat :=
  let digits := match s.toList with
    | '+' :: cs => cs
    | cs => cs
  (natural? 10 digits).filter (· < UInt64.size)

end PatternScan.Text

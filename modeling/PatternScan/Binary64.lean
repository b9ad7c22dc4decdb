/-!
# Binary floating point numbers in exact arithmetic

A finite number of the binary64 format is a sign and `m * 2 ^ q` with `m < 2 ^ 53`. Rounding a
decimal to the format, writing a number with the fewest digits that read back, and rounding it to an
integer are computed on natural numbers.
-/

namespace PatternScan

/-- A number of the binary64 format. -/
inductive Binary64
  /-- The number `m * 2 ^ q`, negated or not. -/
  | finite (negative : Bool) (m : Nat) (q : Int)
  | infinite (negative : Bool)
  | nan
deriving DecidableEq, Repr

namespace Binary64

/-- The quotient rounded to the nearest integer, a half to the even one. -/
def divRound (a b : Nat) : Nat :=
  let quotient := a / b
  let twice := 2 * (a % b)
  if twice < b then quotient
  else if b < twice then quotient + 1
  else quotient + quotient % 2

/-- The numerator and denominator of `num / den * 2 ^ (-q)`. -/
def scale (num den : Nat) (q : Int) : Nat × Nat :=
  if q < 0 then (num <<< q.natAbs, den) else (num, den <<< q.natAbs)

/-- The number nearest to `num / den`, of two the one with an even `m`. -/
def ofRatio (negative : Bool) (num den : Nat) : Binary64 :=
  if num = 0 then .finite negative 0 (-1074)
  else
    let magnitude : Int := (Nat.log2 num : Int) - Nat.log2 den
    let low := max (magnitude - 53) (-1074)
    let fits (q : Int) : Bool :=
      let (n, d) := scale num den q
      divRound n d < 1 <<< 53
    let q := if fits low then low else if fits (low + 1) then low + 1 else low + 2
    let (n, d) := scale num den q
    let m := divRound n d
    if 971 < q then .infinite negative else .finite negative m q

/-- The number nearest to `digits * 10 ^ exponent`. -/
def ofDecimal (negative : Bool) (digits : Nat) (exponent : Int) : Binary64 :=
  let size : Int := (Nat.toDigits 10 digits).length
  if digits = 0 || exponent + size < -330 then .finite negative 0 (-1074)
  else if 310 < exponent + size then .infinite negative
  else if exponent < 0 then ofRatio negative digits (Nat.pow 10 exponent.natAbs)
  else ofRatio negative (digits * Nat.pow 10 exponent.natAbs) 1

/-! ## The fewest digits that read back -/

/-- The decimal `digits * 10 ^ exponent` reads back as `m * 2 ^ q`. -/
def readsBack (m : Nat) (q : Int) (digits : Nat) (exponent : Int) : Bool :=
  ofDecimal false digits exponent = ofRatio false (scale m 1 (-q)).1 (scale m 1 (-q)).2

/-- The nearest decimal with the given exponent, and the other neighbour. -/
def neighbours (m : Nat) (q exponent : Int) : List Nat :=
  let (num, den) := scale m 1 (-q)
  let (num, den) := if exponent < 0 then (num * Nat.pow 10 exponent.natAbs, den)
    else (num, den * Nat.pow 10 exponent.natAbs)
  let down := num / den
  if 2 * (num % den) < den then [down, down + 1] else [down + 1, down]

/-- The decimal exponent of the leading digit of `m * 2 ^ q`. -/
def leadingExponent (m : Nat) (q : Int) : Int :=
  let (num, den) := scale m 1 (-q)
  if den ≤ num then (Nat.toDigits 10 (num / den)).length - 1
  else
    let inverse := (den + num - 1) / num
    let k : Int := -((Nat.toDigits 10 inverse).length - 1)
    if den ≤ num * Nat.pow 10 k.natAbs then k else k - 1

/-- The shortest decimal that reads back, from `n` digits on, with at most `more` digits more. -/
def shortestFrom (m : Nat) (q lead : Int) : Nat → Int → Nat × Int
  | 0, n => ((neighbours m q (lead - n)).headD 0, lead - n)
  | more + 1, n =>
    let exponent := lead - n
    match (neighbours m q exponent).find? fun digits => readsBack m q digits exponent with
    | some digits => (digits, exponent)
    | none => shortestFrom m q lead more (n + 1)

/-- The digits and the exponent of the shortest decimal that reads back as `m * 2 ^ q`. -/
def shortest (m : Nat) (q : Int) : Nat × Int :=
  shortestFrom m q (leadingExponent m q) 17 0

/-- A decimal in positional notation, without zeros at the end of a fraction. -/
def positional (digits : Nat) (exponent : Int) : List Char :=
  let ds := Nat.toDigits 10 digits
  if 0 ≤ exponent then ds ++ List.replicate exponent.natAbs '0'
  else
    let places := exponent.natAbs
    let padded := List.replicate (places + 1 - ds.length) '0' ++ ds
    let whole := padded.take (padded.length - places)
    let fraction := ((padded.drop (padded.length - places)).reverse.dropWhile (· = '0')).reverse
    if fraction.isEmpty then whole else whole ++ '.' :: fraction

/-- The text of a number: positional, with the fewest digits that read back. -/
def text : Binary64 → String
  | nan => "NaN"
  | infinite negative => if negative then "-inf" else "inf"
  | finite negative m q =>
    let magnitude := if m = 0 then ['0'] else
      let (digits, exponent) := shortest m q
      positional digits exponent
    String.ofList (if negative then '-' :: magnitude else magnitude)

/-- The number is not zero. -/
def isNonzero : Binary64 → Bool
  | finite _ m _ => m ≠ 0
  | _ => true

/-- The nearest natural number up to a largest one, a half away from zero. Negative numbers and what
is no number give 0. -/
def roundUpTo (largest : Nat) : Binary64 → Nat
  | nan => 0
  | infinite negative => if negative then 0 else largest
  | finite negative m q =>
    if negative then 0
    else
      let (num, den) := scale m 1 (-q)
      min largest ((2 * num + den) / (2 * den))

end Binary64

end PatternScan

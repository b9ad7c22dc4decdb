import PatternScan.Binary64
import PatternScan.Text.Digits

/-!
# YAML values

The values of a YAML document, and which of them a plain scalar stands for: an integer of 64 bits in
decimal, hexadecimal or octal digits, null, a boolean, a floating point number, or else its text.
Quoted scalars are always text.
-/

namespace PatternScan

/-- A YAML value. -/
inductive Yaml
  | null
  | bool (b : Bool)
  | int (i : Int)
  | float (x : Binary64)
  /-- A scalar that looks like a special floating point number but has no value. -/
  | badFloat
  | text (s : String)
  | list (items : List Yaml)
  | map (entries : List (Yaml × Yaml))
deriving Inhabited

namespace Yaml

/-! ## Plain scalars -/

/-- A sign, if there is one, and what follows it. -/
def splitSign : List Char → Bool × List Char
  | '-' :: cs => (true, cs)
  | '+' :: cs => (false, cs)
  | cs => (false, cs)

/-- The integer of 64 bits that a sign and digits stand for. -/
def integer? (base : Nat) (cs : List Char) : Option Int := do
  let (negative, digits) := splitSign cs
  let n ← Text.natural? base digits
  if negative then
    if n ≤ Int64.size / 2 then some (-(n : Int)) else none
  else if n < Int64.size / 2 then some n else none

/-- The exponent at the end of a floating point number: nothing, or a mark, a sign and digits. -/
def exponent? : List Char → Option Int
  | [] => some 0
  | c :: cs =>
    if c = 'e' || c = 'E' then
      let (negative, digits) := splitSign cs
      (Text.natural? 10 digits).map fun n => if negative then -(n : Int) else n
    else none

/-- The floating point number written in decimal: digits with at most one point, of which at least
one is a digit, and an exponent. -/
def decimal? (negative : Bool) (cs : List Char) : Option Binary64 := do
  let isDigit := fun c => (Text.digit? 10 c).isSome
  let (whole, rest) := cs.span isDigit
  let (fraction, rest) := match rest with
    | '.' :: rest => rest.span isDigit
    | rest => ([], rest)
  let exponent ← exponent? rest
  let digits ← Text.natural? 10 (whole ++ fraction)
  return .ofDecimal negative digits (exponent - fraction.length)

/-- The floating point number of a text, the special numbers by name in any case. -/
def float? (cs : List Char) : Option Binary64 :=
  let (negative, body) := splitSign cs
  let name := String.ofList (body.map Char.toLower)
  if name = "inf" || name = "infinity" then some (.infinite negative)
  else if name = "nan" then some .nan
  else decimal? negative body

/-- The names of special floating point numbers that are recognised but cannot be read. -/
def badFloats : List String :=
  [".inf", ".Inf", ".INF", "+.inf", "+.Inf", "+.INF", "-.inf", "-.Inf", "-.INF", ".nan", ".NAN"]

/-- The integer of a text with a base mark or an extra plus sign. -/
def marked? : List Char → Option Int
  | '0' :: 'x' :: cs => integer? 16 cs
  | '0' :: 'o' :: cs => integer? 8 cs
  | '+' :: cs => integer? 10 cs
  | _ => none

/-- The value of a plain scalar. -/
def ofPlain (cs : List Char) : Yaml :=
  let s := String.ofList cs
  match marked? cs with
  | some i => .int i
  | none =>
    if s = "~" || s = "null" then .null
    else if s = "true" then .bool true
    else if s = "false" then .bool false
    else match integer? 10 cs with
      | some i => .int i
      | none =>
        if badFloats.contains s then .badFloat
        else match float? cs with
          | some x => .float x
          | none => .text s

end Yaml

end PatternScan

import PatternScan.Json
import PatternScan.Text.Digits

/-!
# Reading JSON

`Json.parse?` reads a text that holds one value and blanks around it. Every reader takes the
characters from its value on and gives the rest behind it; the nesting is bounded by the length of
the text.
-/

namespace PatternScan.Json

/-- A reader of a value at the start of a text. -/
abbrev Reader (α : Type) := List Char → Option (α × List Char)

/-- The blanks of JSON. -/
def isBlank (c : Char) : Bool :=
  c = ' ' || c = '\n' || c = '\t' || c = '\r'

/-- The text behind leading blanks. -/
def skipBlanks (cs : List Char) : List Char :=
  cs.dropWhile isBlank

/-! ## Numbers -/

/-- A digit. -/
def isDigit (c : Char) : Bool :=
  '0' ≤ c && c ≤ '9'

/-- One digit or more. -/
def readDigits : Reader (List Char) := fun cs =>
  match cs.span isDigit with
  | ([], _) => none
  | (ds, rest) => some (ds, rest)

/-- The whole part of a number: no zero before other digits. -/
def readWhole : Reader (List Char)
  | '0' :: rest => some (['0'], rest)
  | cs => readDigits cs

/-- The fraction of a number, if a point follows. -/
def readFraction : Reader (List Char)
  | '.' :: cs => (readDigits cs).map fun (ds, rest) => ('.' :: ds, rest)
  | cs => some ([], cs)

/-- The exponent of a number, if its mark follows. -/
def readExponent : Reader (List Char)
  | c :: cs =>
    if c = 'e' || c = 'E' then
      match cs with
      | s :: cs' =>
        if s = '+' || s = '-' then (readDigits cs').map fun (ds, rest) => (c :: s :: ds, rest)
        else (readDigits cs).map fun (ds, rest) => (c :: ds, rest)
      | [] => none
    else some ([], c :: cs)
  | [] => some ([], [])

/-- A number without a sign. -/
def readUnsigned : Reader (List Char) := fun cs => do
  let (whole, cs) ← readWhole cs
  let (fraction, cs) ← readFraction cs
  let (exponent, cs) ← readExponent cs
  return (whole ++ fraction ++ exponent, cs)

/-- A number. -/
def readNumber : Reader (List Char)
  | '-' :: cs => (readUnsigned cs).map fun (literal, rest) => ('-' :: literal, rest)
  | cs => readUnsigned cs

/-- The value of a plain unsigned integer below 2^64. -/
def natural? : Json → Option Nat
  | number literal =>
    if literal.all isDigit then
      let n := literal.foldl (fun n c => 10 * n + (c.toNat - 0x30)) 0
      if n < UInt64.size then some n else none
    else none
  | _ => none

/-! ## Strings -/

/-- The value of a hexadecimal digit. -/
def hexDigit? : Char → Option Nat :=
  Text.digit? 16

/-- Four hexadecimal digits. -/
def readUnit : Reader Nat
  | a :: b :: c :: d :: rest => do
    return (((← hexDigit? a) * 16 + (← hexDigit? b)) * 256 + (← hexDigit? c) * 16 + (← hexDigit? d),
      rest)
  | _ => none

/-- A part of a string: a character, or a number that is half of a surrogate pair. -/
inductive Unit
  | char (c : Char)
  | half (n : Nat)

/-- The character of an escape other than a numeric one. -/
def escaped? (c : Char) : Option Char :=
  if c = '"' || c = '\\' || c = '/' then some c
  else if c = 'b' then some '\x08'
  else if c = 'f' then some '\x0c'
  else if c = 'n' then some '\n'
  else if c = 'r' then some '\r'
  else if c = 't' then some '\t'
  else none

/-- The part a number stands for. -/
def Unit.ofNumber (n : Nat) : Unit :=
  if 0xD800 ≤ n && n < 0xE000 then .half n else .char (Char.ofNat n)

/-- The parts of a string up to its closing quote, at most as many as there is `fuel`. -/
def readUnits : Nat → Reader (List Unit)
  | 0, _ => none
  | _, [] => none
  | fuel + 1, c :: cs =>
    if c = '"' then some ([], cs)
    else if c = '\\' then
      match cs with
      | 'u' :: cs => do
        let (n, cs) ← readUnit cs
        let (us, rest) ← readUnits fuel cs
        return (Unit.ofNumber n :: us, rest)
      | e :: cs => do
        let d ← escaped? e
        let (us, rest) ← readUnits fuel cs
        return (.char d :: us, rest)
      | [] => none
    else if c.toNat < 0x20 then none
    else do
      let (us, rest) ← readUnits fuel cs
      return (.char c :: us, rest)

/-- The text of the parts of a string; two halves in the right order make one character. -/
def textOf : List Unit → Option (List Char)
  | [] => some []
  | .char c :: us => (textOf us).map (c :: ·)
  | .half hi :: .half lo :: us =>
    if hi < 0xDC00 && 0xDC00 ≤ lo then
      (textOf us).map (Char.ofNat (0x10000 + (hi - 0xD800) * 1024 + (lo - 0xDC00)) :: ·)
    else none
  | .half _ :: _ => none

/-- A string behind its opening quote. -/
def readString : Reader (Option (List Char)) := fun cs =>
  (readUnits (cs.length + 1) cs).map fun (us, rest) => (textOf us, rest)

/-! ## Values -/

/-- A keyword at the start of a text. -/
def readWord (word : String) (value : Json) : Reader Json := fun cs =>
  let w := word.toList
  if w.isPrefixOf cs then some (value, cs.drop w.length) else none

mutual

/-- A value; the text starts with it. -/
def readValue : Nat → Reader Json
  | 0, _ => none
  | _, [] => none
  | fuel + 1, c :: cs =>
    if c = '"' then
      (readString cs).map fun (s?, rest) => ((s?.map text).getD brokenText, rest)
    else if c = '[' then
      match skipBlanks cs with
      | ']' :: rest => some (array [], rest)
      | cs => (readItems fuel cs).map fun (vs, rest) => (array vs, rest)
    else if c = '\x7b' then
      match skipBlanks cs with
      | '\x7d' :: rest => some (object [], rest)
      | cs => (readFields fuel cs).map fun (fs, rest) => (object fs, rest)
    else if c = 'n' then readWord "null" null (c :: cs)
    else if c = 't' then readWord "true" (bool true) (c :: cs)
    else if c = 'f' then readWord "false" (bool false) (c :: cs)
    else (readNumber (c :: cs)).map fun (literal, rest) => (number literal, rest)

/-- The items of an array up to its bracket; the text starts with one. -/
def readItems : Nat → Reader (List Json)
  | 0, _ => none
  | fuel + 1, cs => do
    let (v, cs) ← readValue fuel cs
    match skipBlanks cs with
    | ']' :: rest => return ([v], rest)
    | ',' :: cs =>
      let (vs, rest) ← readItems fuel (skipBlanks cs)
      return (v :: vs, rest)
    | _ => none

/-- The fields of an object up to its brace; the text starts with a key. -/
def readFields : Nat → Reader (List (Option (List Char) × Json))
  | 0, _ => none
  | fuel + 1, cs =>
    match cs with
    | '"' :: cs => do
      let (k, cs) ← readString cs
      match skipBlanks cs with
      | ':' :: cs =>
        let (v, cs) ← readValue fuel (skipBlanks cs)
        match skipBlanks cs with
        | '\x7d' :: rest => return ([(k, v)], rest)
        | ',' :: cs =>
          let (fs, rest) ← readFields fuel (skipBlanks cs)
          return ((k, v) :: fs, rest)
        | _ => none
      | _ => none
    | _ => none

end

/-- The value a text holds. -/
def parse? (cs : List Char) : Option Json :=
  match readValue (cs.length + 1) (skipBlanks cs) with
  | some (v, rest) => if (skipBlanks rest).isEmpty then some v else none
  | none => none

end PatternScan.Json

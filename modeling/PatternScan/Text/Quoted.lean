import PatternScan.Text.Unprintable
import PatternScan.Text.Utf8

/-!
# Quoted text

Text between quotes, so that every character can be told: the quote and the backslash are escaped,
common control characters have a short escape, and characters without a visible form are written as
their code point in braces.
-/

namespace PatternScan.Text

/-- The digits of a code point between braces. -/
def codePointEscape (c : Char) : List Char :=
  ['\\', 'u', '\x7b'] ++ Nat.toDigits 16 c.toNat ++ ['\x7d']

/-- One character of quoted text; `quote` is the quote that surrounds it. -/
def escapeChar (quote c : Char) : List Char :=
  if c = '\x00' then ['\\', '0']
  else if c = '\t' then ['\\', 't']
  else if c = '\r' then ['\\', 'r']
  else if c = '\n' then ['\\', 'n']
  else if c = '\\' then ['\\', '\\']
  else if c = quote then ['\\', c]
  else if isHidden c then codePointEscape c
  else [c]

/-- A text between double quotes. -/
def quote (cs : List Char) : String :=
  String.ofList ('"' :: cs.flatMap (escapeChar '"') ++ ['"'])

/-- A character between single quotes. -/
def quoteChar (c : Char) : String :=
  String.ofList ('\'' :: escapeChar '\'' c ++ ['\''])

/-- A byte string read as text, damage replaced, between double quotes. -/
def quoteLossy (bs : List UInt8) : String :=
  quote (Utf8.decodeLossy bs)

end PatternScan.Text

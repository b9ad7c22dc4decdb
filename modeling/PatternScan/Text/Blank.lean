/-!
# White space

Two sets of white space: the ASCII one, over bytes, and the Unicode property `White_Space`, over
characters. A text is trimmed by dropping such characters from both ends.
-/

namespace PatternScan.Text

/-- ASCII white space: space, tab, line feed, form feed and carriage return. -/
def isAsciiBlank (b : UInt8) : Bool :=
  b = 0x20 || b = 0x09 || b = 0x0A || b = 0x0C || b = 0x0D

/-- The property `White_Space`. -/
def isBlank (c : Char) : Bool :=
  let n := c.toNat
  (0x09 ≤ n && n ≤ 0x0D) || n = 0x20 || n = 0x85 || n = 0xA0 || n = 0x1680 ||
    (0x2000 ≤ n && n ≤ 0x200A) || n = 0x2028 || n = 0x2029 || n = 0x202F || n = 0x205F || n = 0x3000

/-- Drops elements of a class from the end of a list. -/
def trimEnd {α : Type} (p : α → Bool) (xs : List α) : List α :=
  (xs.reverse.dropWhile p).reverse

/-- Drops elements of a class from both ends of a list. -/
def trim {α : Type} (p : α → Bool) (xs : List α) : List α :=
  trimEnd p (xs.dropWhile p)

end PatternScan.Text

import PatternScan.Builder
import PatternScan.Error
import PatternScan.Text.Blank

/-!
# Pattern files

A pattern file holds one pattern a line, written literally or in hexadecimal digits. Literal lines
are bytes and lose the ASCII white space at both ends; hexadecimal lines are UTF-8 text and lose
Unicode white space. Blank lines are skipped. Reading a hexadecimal file stops at the first line
that is neither blank nor a pattern; the patterns before it have been read.
-/

namespace PatternScan.PatternFile

/-- How patterns are written. -/
inductive Form
  | literal
  | hex
deriving DecidableEq, Repr

/-- What a file yields: the patterns up to the first bad line, and why that line is bad. -/
structure Reading where
  patterns : List Pattern
  failure : Option Error := none
deriving DecidableEq, Repr

/-- The lines of a file; what follows the last line feed counts as a line. -/
def lines (bytes : List UInt8) : List (List UInt8) :=
  bytes.splitOn 0x0A

/-- The patterns of a literal file. -/
def readLiteral (bytes : List UInt8) : Reading :=
  { patterns := ((lines bytes).map (Text.trim Text.isAsciiBlank)).filter fun p => !p.isEmpty }

/-- What one line of a hexadecimal file holds: nothing, or a pattern. -/
def hexLine (number : Nat) (line : List UInt8) : Except Error (Option Pattern) :=
  match Text.Utf8.decode? line with
  | none => .error (.io "stream did not contain valid UTF-8")
  | some text =>
    let digits := Text.Utf8.encode (Text.trim Text.isBlank text)
    if digits.isEmpty then .ok none
    else match Text.Hex.decode digits with
      | .error cause => .error (.invalidHex number cause)
      | .ok p => .ok (some p)

/-- Reads lines, the first of which has the given number, up to a bad one. -/
def readHexLines : Nat → List (List UInt8) → Reading
  | _, [] => { patterns := [] }
  | number, line :: rest =>
    match hexLine number line with
    | .error e => { patterns := [], failure := some e }
    | .ok none => readHexLines (number + 1) rest
    | .ok (some p) =>
      let reading := readHexLines (number + 1) rest
      { reading with patterns := p :: reading.patterns }

/-- The patterns of a hexadecimal file up to its first bad line. -/
def readHex (bytes : List UInt8) : Reading :=
  readHexLines 1 (lines bytes)

/-- The patterns of a file. -/
def read : Form → List UInt8 → Reading
  | .literal, bytes => readLiteral bytes
  | .hex, bytes => readHex bytes

end PatternScan.PatternFile

namespace PatternScan.Builder

/-- Adds the patterns of a file: how many they are, or why the file is bad; the patterns before a
bad line stay added. -/
def addFile (b : Builder) (form : PatternFile.Form) (bytes : List UInt8) :
    Except Error Nat × Builder :=
  let reading := PatternFile.read form bytes
  let outcome := match reading.failure with
    | some e => .error e
    | none => .ok reading.patterns.length
  (outcome, b.addAll reading.patterns)

end PatternScan.Builder

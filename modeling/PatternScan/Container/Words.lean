import PatternScan.Container.Defect
import PatternScan.LittleEndian

/-!
# Words in bytes

A container is a sequence of 64-bit words, the low byte first.
-/

namespace PatternScan.Container

/-- Appends a word. -/
def pushWord (out : ByteArray) (value : Nat) : ByteArray :=
  pushLittleEndian 8 value out

/-- The bytes of a sequence of words. -/
def ofWords (words : List Nat) : ByteArray :=
  words.foldl pushWord .empty

/-- The word at offset `i` of a stream; `field` is to blame if it is not all there. -/
def readWord (s : ByteStream) (field : Field) (i : Nat) : Except Failure Nat :=
  if i + 8 ≤ s.bytes.size then .ok (littleEndian s.bytes i 8)
  else .error (.ofEnding field s.ending)

/-- Reads `n` words from offset `i` on behind those in `words`. -/
def readWordsOnto (s : ByteStream) (field : Field) : Nat → Nat → Array Nat →
    Except Failure (Array Nat)
  | 0, _, words => .ok words
  | n + 1, i, words =>
    match readWord s field i with
    | .error e => .error e
    | .ok word => readWordsOnto s field n (i + 8) (words.push word)

/-- The `n` words from offset `i` of a stream on. -/
def readWords (s : ByteStream) (field : Field) (n i : Nat) : Except Failure (Array Nat) :=
  readWordsOnto s field n i #[]

end PatternScan.Container

import PatternScan.Text.Utf8

/-!
# Globs

A glob is a pattern for a relative path. It is matched byte by byte: `?` stands for one byte and `*`
for any number of them inside a name, `**` for any number of directories, `[...]` for one byte of a
class and `{a,b}` for one of the alternatives. `Glob.parse?` reads a glob and `Glob.isMatch` tells
whether it matches a whole path.
-/

namespace PatternScan

namespace Glob

/-- The slash between names. -/
def slash : UInt8 :=
  0x2F

/-- A part of a glob. -/
inductive Part
  | literal (bytes : List UInt8)
  /-- One byte inside a name. -/
  | anyByte
  /-- Any number of bytes inside a name. -/
  | anyBytes
  /-- Any number of directories at the start. -/
  | leading
  /-- Everything below a directory. -/
  | trailing
  /-- A slash, with any number of directories behind it. -/
  | between
  /-- One byte of a class of ranges, or outside of it. -/
  | oneOf (negated : Bool) (ranges : List (UInt8 × UInt8))
  | choice (alternatives : List (List Part))

end Glob

/-- A glob as its parts. -/
abbrev Glob := List Glob.Part

namespace Glob

/-! ## Lexemes -/

/-- A lexeme of a glob. -/
inductive Lexeme
  | char (c : Char)
  | escaped (c : Char)
  | question
  | star
  | oneOf (negated : Bool) (ranges : List (UInt8 × UInt8))
  | openBrace
  | closeBrace
  | comma

/-- The bytes of a character. -/
def bytesOf (c : Char) : List UInt8 :=
  String.utf8EncodeChar c

/-- The byte ranges a range of characters stands for: of the ends, only the bytes that face each
other form a range. -/
def byteRanges (lo hi : Char) : List (UInt8 × UInt8) :=
  let single (b : UInt8) := (b, b)
  if lo = hi then (bytesOf lo).map single
  else
    (bytesOf lo).dropLast.map single ++
      (((bytesOf lo).getLast?.bind fun a => (bytesOf hi).head?.map fun b => (a, b)).toList ++
        (bytesOf hi).tail.map single)

/-- A class behind its opening bracket, as far as it has been read. -/
structure ClassSoFar where
  negated : Bool := false
  /-- Nothing has been read that belongs to the class. -/
  first : Bool := true
  /-- A range is open: a hyphen was the last character. -/
  inRange : Bool := false
  /-- The ranges of characters, the last one first. -/
  ranges : List (Char × Char) := []

namespace ClassSoFar

/-- Takes in a character; a range must not run backwards. -/
def add? (s : ClassSoFar) (c : Char) : Option ClassSoFar :=
  match s.inRange, s.ranges with
  | true, (lo, _) :: older =>
    if c < lo then none
    else some { s with first := false, inRange := false, ranges := (lo, c) :: older }
  | _, _ =>
    if c = '-' && !s.first then some { s with inRange := true }
    else some { s with first := false, inRange := false, ranges := (c, c) :: s.ranges }

/-- The class at its closing bracket; a range that is still open ends in a plain hyphen. -/
def lexeme (s : ClassSoFar) : Lexeme :=
  let ranges := if s.inRange then ('-', '-') :: s.ranges else s.ranges
  .oneOf s.negated (ranges.reverse.flatMap fun (lo, hi) => byteRanges lo hi)

end ClassSoFar

/-- What the characters read last have begun. -/
inductive Begun
  | nothing
  | escape
  /-- A class of which only the opening bracket has been read. -/
  | bracket
  | inside (s : ClassSoFar)

/-- The lexemes of a glob; an escape or class that is not finished, or a range that runs backwards,
makes it malformed. -/
def lex : Begun → List Char → Option (List Lexeme)
  | .nothing, [] => some []
  | _, [] => none
  | .escape, c :: cs => (lex .nothing cs).map (.escaped c :: ·)
  | .bracket, c :: cs =>
    if c = '!' || c = '^' then lex (.inside { negated := true }) cs
    else (ClassSoFar.add? {} c).bind fun s => lex (.inside s) cs
  | .inside s, c :: cs =>
    if c = ']' && !s.first then (lex .nothing cs).map (s.lexeme :: ·)
    else (s.add? c).bind fun s => lex (.inside s) cs
  | .nothing, c :: cs =>
    match c with
    | '\\' => lex .escape cs
    | '[' => lex .bracket cs
    | '?' => (lex .nothing cs).map (.question :: ·)
    | '*' => (lex .nothing cs).map (.star :: ·)
    | '\x7b' => (lex .nothing cs).map (.openBrace :: ·)
    | '\x7d' => (lex .nothing cs).map (.closeBrace :: ·)
    | ',' => (lex .nothing cs).map (.comma :: ·)
    | c => (lex .nothing cs).map (.char c :: ·)

namespace Lexeme

/-- A slash, escaped or not. -/
def isSlash : Lexeme → Bool
  | char c => c = '/'
  | escaped c => c = '/'
  | _ => false

/-- A slash that is not escaped. -/
def isPlainSlash : Lexeme → Bool
  | char c => c = '/'
  | _ => false

/-- Spelled like the start of an alternative. -/
def startsAlternative : Lexeme → Bool
  | openBrace => true
  | comma => true
  | escaped c => c = '\x7b' || c = ','
  | _ => false

/-- The end of an alternative. -/
def endsAlternative : Lexeme → Bool
  | comma => true
  | closeBrace => true
  | _ => false

end Lexeme

/-! ## Parsing -/

/-- The alternatives that have been read between braces, and the parts of the current one, both in
reverse. -/
structure Branches where
  older : List (List Part) := []
  current : List Part := []

namespace Branches

/-- Adds a part to the current alternative. -/
def push (b : Branches) (p : Part) : Branches :=
  { b with current := p :: b.current }

/-- Begins the next alternative. -/
def next (b : Branches) : Branches :=
  ⟨b.current.reverse :: b.older, []⟩

/-- An alternative without a part that could match anything. -/
def isBlank (parts : List Part) : Bool :=
  parts.all fun
    | .choice [] => true
    | _ => false

/-- The choice between the alternatives; blank ones do not count. -/
def choice (b : Branches) : Part :=
  .choice ((b.next.older.reverse).filter fun parts => !isBlank parts)

/-- Puts a pair of stars behind a slash in place of the slash. A pair that follows another one adds
nothing to it. -/
def absorb (b : Branches) (p : Part) : Branches :=
  match b.current with
  | .leading :: _ => b
  | .trailing :: _ => b
  | _ :: parts => { b with current := p :: parts }
  | [] => b.push p

/-- Adds a pair of stars between two lexemes; `nested` tells whether the braces are open. At the
start of an alternative the pair stands for leading directories if it makes up a name, behind a
slash for directories between names or for everything below; anywhere else it is no more than two
stars. -/
def pushPair (b : Branches) (nested : Bool) (last next : Option Lexeme) : Branches :=
  let plain := (b.push .anyBytes).push .anyBytes
  if b.current.isEmpty then
    if next.all Lexeme.isPlainSlash then b.push .leading else plain
  else if last.any fun l => l.isSlash || (nested && l.startsAlternative) then
    if next.all fun l => nested && l.endsAlternative then b.absorb .trailing
    else if next.any Lexeme.isPlainSlash then b.absorb .between
    else plain
  else plain

/-- The slash behind a pair of stars belongs to it. -/
def pairTakesSlash (b : Branches) (nested : Bool) (last next : Option Lexeme) : Bool :=
  next.any Lexeme.isPlainSlash &&
    (b.current.isEmpty || last.any fun l => l.isSlash || (nested && l.startsAlternative))

end Branches

/-- Parses lexemes, given the last one, the branches around the current braces, and those inside. -/
def parseFrom : Option Lexeme → List Branches → Branches → List Lexeme → Option Glob
  | _, outer, b, [] => if outer.isEmpty then some b.current.reverse else none
  | last, outer, b, .star :: .star :: rest =>
    let nested := !outer.isEmpty
    let pushed := b.pushPair nested last rest.head?
    if b.pairTakesSlash nested last rest.head? then
      parseFrom (some (.char '/')) outer pushed rest.tail
    else parseFrom (some .star) outer pushed rest
  | _, outer, b, l :: rest =>
    match l with
    | .star => parseFrom (some l) outer (b.push .anyBytes) rest
    | .question => parseFrom (some l) outer (b.push .anyByte) rest
    | .char c => parseFrom (some l) outer (b.push (.literal (bytesOf c))) rest
    | .escaped c => parseFrom (some l) outer (b.push (.literal (bytesOf c))) rest
    | .oneOf negated ranges => parseFrom (some l) outer (b.push (.oneOf negated ranges)) rest
    | .openBrace => parseFrom (some l) (b :: outer) {} rest
    | .comma =>
      parseFrom (some l) outer (if outer.isEmpty then b.push (.literal (bytesOf ',')) else b.next)
        rest
    | .closeBrace =>
      match outer with
      | [] => none
      | around :: outer => parseFrom (some l) outer (around.push b.choice) rest
termination_by _ _ _ lexemes => lexemes.length
decreasing_by all_goals simp only [List.length_cons, List.length_tail]; omega

/-- The glob of a text, unless it is malformed. -/
def parse? (text : List Char) : Option Glob :=
  (lex .nothing text).bind (parseFrom none [] {})

/-! ## Matching -/

/-- The text without its first `n` bytes for every `n` up to the length of the first name. -/
def behindName : List UInt8 → List (List UInt8)
  | [] => [[]]
  | b :: bs => if b = slash then [b :: bs] else (b :: bs) :: behindName bs

/-- What follows each slash of the text. -/
def behindSlashes : List UInt8 → List (List UInt8)
  | [] => []
  | b :: bs => if b = slash then bs :: behindSlashes bs else behindSlashes bs

/-- Every text that is left when bytes are dropped from the start. -/
def suffixes : List UInt8 → List (List UInt8)
  | [] => [[]]
  | b :: bs => (b :: bs) :: suffixes bs

/-- Keeps one of equally long texts; texts left of one text are equal if they are equally long. -/
def distinct (texts : List (List UInt8)) : List (List UInt8) :=
  texts.foldr (fun text kept =>
    if kept.any fun other => other.length = text.length then kept else text :: kept) []

mutual

/-- What a part can leave of a text it matches the start of. -/
def rests : Part → List UInt8 → List (List UInt8)
  | .literal bytes, text => if bytes.isPrefixOf text then [text.drop bytes.length] else []
  | .anyByte, text =>
    match text with
    | b :: bs => if b = slash then [] else [bs]
    | [] => []
  | .anyBytes, text => behindName text
  | .leading, text => text :: behindSlashes text
  | .trailing, text =>
    match text with
    | b :: bs => if b = slash then suffixes bs else []
    | [] => []
  | .between, text =>
    match text with
    | b :: bs => if b = slash then bs :: behindSlashes bs else []
    | [] => []
  | .oneOf negated ranges, text =>
    match text with
    | b :: bs =>
      if (ranges.any fun (lo, hi) => lo ≤ b && b ≤ hi) != negated then [bs] else []
    | [] => []
  | .choice [], text => [text]
  | .choice (parts :: alternatives), text =>
    restsAll parts [text] ++ restsAny alternatives text

/-- What parts, one behind the other, can leave of one of the texts. -/
def restsAll : List Part → List (List UInt8) → List (List UInt8)
  | [], texts => texts
  | p :: parts, texts => restsAll parts (distinct (texts.flatMap fun text => rests p text))

/-- What one of the alternatives can leave of a text. -/
def restsAny : List (List Part) → List UInt8 → List (List UInt8)
  | [], _ => []
  | parts :: alternatives, text => restsAll parts [text] ++ restsAny alternatives text

end

/-- The glob matches a whole path. A glob of nothing but a leading pair of stars matches all paths.
-/
def isMatch (g : Glob) (path : List UInt8) : Bool :=
  match g with
  | [.leading] => true
  | g => (restsAll g [path]).any List.isEmpty

end Glob

end PatternScan

import PatternScan.Yaml

/-!
# Reading YAML

A reader for the plain part of the language: block mappings and sequences, flow collections, plain
and quoted scalars over one or more lines, comments, and document marks. Anchors, tags, block
scalars and complex keys are refused. A reader takes a cursor, which knows its column, and gives the
value and the cursor behind it; `none` is a text that is not accepted.
-/

namespace PatternScan.Yaml

/-- A position in a text: what follows, and the column. -/
structure Cursor where
  rest : List Char
  column : Nat

namespace Cursor

/-- The position behind `n` characters of the line. -/
def advance (c : Cursor) (n : Nat) : Cursor :=
  ⟨c.rest.drop n, c.column + n⟩

/-- Blank or the end of a line or text. -/
def blankOrEnd : List Char → Bool
  | [] => true
  | c :: _ => c = ' ' || c = '\t' || c = '\n'

/-- The position starts a line with a document mark. -/
def atMark (c : Cursor) (mark : String) : Bool :=
  c.column = 0 && mark.toList.isPrefixOf c.rest && blankOrEnd (c.rest.drop 3)

/-- The document ends here. -/
def atEnd (c : Cursor) : Bool :=
  c.rest.isEmpty || c.atMark "---" || c.atMark "..."

/-- An indicator stands here with a blank behind it. -/
def atIndicator (c : Cursor) (indicator : Char) : Bool :=
  c.rest.head? = some indicator && blankOrEnd (c.rest.drop 1)

/-- Blanks and comments before the next token, over any number of lines. `tabs` tells whether a tab
counts as a blank on this line; it does on no later line unless `flow` holds. Gives whether a line
end was crossed. -/
def skipFrom (flow : Bool) : Bool → Bool → Bool → Nat → List Char → Cursor × Bool
  | _, _, crossed, column, [] => (⟨[], column⟩, crossed)
  | tabs, comment, crossed, column, c :: cs =>
    if c = '\n' then skipFrom flow flow false true 0 cs
    else if comment || c = ' ' || (tabs && c = '\t') then
      skipFrom flow tabs comment crossed (column + 1) cs
    else if c = '#' then skipFrom flow tabs true crossed (column + 1) cs
    else (⟨c :: cs, column⟩, crossed)

/-- The next token of a block, and whether it stands on a later line. -/
def skip (c : Cursor) (tabs : Bool) : Cursor × Bool :=
  skipFrom false tabs false false c.column c.rest

/-- The next token of a block from the start of a line on. -/
def token (c : Cursor) : Cursor :=
  (c.skip false).1

/-- The next token inside a flow collection. -/
def flowToken (c : Cursor) : Cursor :=
  (skipFrom true true false false c.column c.rest).1

/-- Blanks on the same line. -/
def skipInline (c : Cursor) : Cursor :=
  let blanks := c.rest.takeWhile fun ch => ch = ' ' || ch = '\t'
  c.advance blanks.length

/-- Nothing but a comment is left of the line. -/
def lineDone (c : Cursor) : Bool :=
  match c.rest with
  | [] => true
  | ch :: _ => ch = '\n' || ch = '#'

end Cursor

/-! ## Scalars -/

/-- The space between two parts of a scalar: blanks, or a number of line ends. -/
inductive Gap
  | blanks (reversed : List Char)
  | breaks (count : Nat)

namespace Gap

/-- What a gap contributes to the text: blanks as they are, one line end as a space, and of several
all but the first. -/
def reversedText : Gap → List Char
  | blanks cs => cs
  | breaks 1 => [' ']
  | breaks n => List.replicate (n - 1) '\n'

/-- The gap is at least a line end. -/
def crossed : Gap → Bool
  | blanks _ => false
  | breaks _ => true

/-- The gap after one more blank. -/
def addBlank (c : Char) : Gap → Gap
  | blanks cs => blanks (c :: cs)
  | breaks n => breaks n

/-- The gap after one more line end. -/
def addBreak : Gap → Gap
  | blanks _ => breaks 1
  | breaks n => breaks (n + 1)

end Gap

/-- A scalar or collection as far as it can be a key: its value, whether it spans lines, and whether
the cursor behind it is on a later line. -/
structure Atom where
  value : Yaml
  spans : Bool
  crossed : Bool
  cursor : Cursor

/-- The characters that mean something in a flow collection. -/
def isFlowMark (c : Char) : Bool :=
  c = ',' || c = '[' || c = ']' || c = '\x7b' || c = '\x7d'

/-- A plain scalar ends before this character. -/
def endsPlain (flow : Bool) (c : Char) (cs : List Char) : Bool :=
  (c = ':' && (Cursor.blankOrEnd cs || (flow && (cs.head?.any isFlowMark)))) ||
    (flow && isFlowMark c)

/-- A plain scalar from here on, given its text so far in reverse. In a block, a later line belongs
to it if it starts at column `least` or later. -/
def plainFrom (flow : Bool) (least : Int) :
    List Char → Bool → Gap → Nat → List Char → Option Atom
  | done, spans, gap, column, [] =>
    some ⟨ofPlain done.reverse, spans, gap.crossed, ⟨[], column⟩⟩
  | done, spans, gap, column, c :: cs =>
    let here : Cursor := ⟨c :: cs, column⟩
    let stop := some ⟨ofPlain done.reverse, spans, gap.crossed, here⟩
    if c = '\n' then plainFrom flow least done spans gap.addBreak 0 cs
    else if c = ' ' || c = '\t' then
      if c = '\t' && gap.crossed && (column : Int) < least then none
      else plainFrom flow least done spans (gap.addBlank c) (column + 1) cs
    else
      let resumed := match gap with
        | .blanks [] => false
        | _ => true
      if resumed && (c = '#' || here.atMark "---" || here.atMark "...") then stop
      else if !flow && gap.crossed && (column : Int) < least then stop
      else if endsPlain flow c cs then stop
      else plainFrom flow least (c :: (gap.reversedText ++ done)) (spans || gap.crossed)
        (.blanks []) (column + 1) cs

/-- The characters of the escapes in double quotes. -/
def escapes : List (Char × Char) :=
  [('0', '\x00'), ('a', '\x07'), ('b', '\x08'), ('t', '\t'), ('\t', '\t'), ('n', '\n'),
    ('v', '\x0b'), ('f', '\x0c'), ('r', '\r'), ('e', '\x1b'), (' ', ' '), ('"', '"'),
    ('\'', '\''), ('\\', '\\'), ('N', '\u0085'), ('_', '\u00a0'), ('L', '\u2028'),
    ('P', '\u2029')]

/-- The number of digits of a numeric escape. -/
def escapeLength? (c : Char) : Option Nat :=
  if c = 'x' then some 2 else if c = 'u' then some 4 else if c = 'U' then some 8 else none

/-- The character of a code point written in hexadecimal digits. -/
def codePoint? (digits : List Char) (length : Nat) : Option Char := do
  if digits.length ≠ length then none
  let n ← Text.natural? 16 digits
  if n < 0xD800 || (0xE000 ≤ n && n < 0x110000) then some (Char.ofNat n) else none

/-- A quoted scalar behind its opening quote, given its text so far in reverse. -/
def quotedFrom (quote : Char) :
    Nat → List Char → Bool → Gap → Nat → List Char → Option Atom
  | 0, _, _, _, _, _ => none
  | _, _, _, _, _, [] => none
  | fuel + 1, done, spans, gap, column, c :: cs =>
    let add (ch : Char) (length : Nat) (rest : List Char) :=
      quotedFrom quote fuel (ch :: (gap.reversedText ++ done)) (spans || gap.crossed) (.blanks [])
        (column + length) rest
    if c = '\n' then quotedFrom quote fuel done spans gap.addBreak 0 cs
    else if c = ' ' || c = '\t' then
      quotedFrom quote fuel done spans (gap.addBlank c) (column + 1) cs
    else if Cursor.atMark ⟨c :: cs, column⟩ "---" || Cursor.atMark ⟨c :: cs, column⟩ "..." then none
    else if c = quote then
      match c, cs with
      | '\'', '\'' :: rest => add '\'' 2 rest
      | _, _ =>
        some ⟨.text (String.ofList (gap.reversedText ++ done).reverse), spans || gap.crossed, false,
          ⟨cs, column + 1⟩⟩
    else if c = '\\' && quote = '"' then
      match cs with
      | [] => none
      | '\n' :: rest =>
        -- an escaped line end joins the lines
        let rest := rest.dropWhile fun ch => ch = ' ' || ch = '\t'
        quotedFrom quote fuel (gap.reversedText ++ done) true (.blanks []) 1 rest
      | e :: rest =>
        match escapes.lookup e with
        | some ch => add ch 2 rest
        | none => do
          let length ← escapeLength? e
          let ch ← codePoint? (rest.take length) length
          add ch (2 + length) (rest.drop length)
    else add c 1 cs

/-! ## Flow collections -/

/-- A colon that separates a key from its value in a flow collection. -/
def flowColon (c : Cursor) (adjacent : Bool) : Bool :=
  match c.rest with
  | ':' :: cs => adjacent || Cursor.blankOrEnd cs || cs.head?.any isFlowMark
  | _ => false

/-- No scalar or collection starts with this character. -/
def startsNothing (c : Char) (cs : List Char) : Bool :=
  c = ',' || c = ']' || c = '\x7d' || c = '*' || c = '&' || c = '!' || c = '|' || c = '>' ||
    c = '%' || c = '@' || c = '\x60' ||
    ((c = '-' || c = '?' || c = ':') && Cursor.blankOrEnd cs)

/-- A key that may be followed by a colon without a blank. -/
def allowsAdjacent (c : Cursor) : Bool :=
  c.rest.head?.any fun ch => ch = '"' || ch = '\'' || ch = '[' || ch = '\x7b'

mutual

/-- A scalar or flow collection that starts here. -/
def atom : Nat → Bool → Int → Cursor → Option Atom
  | 0, _, _, _ => none
  | fuel + 1, flow, least, c =>
    match c.rest with
    | [] => none
    | ch :: cs =>
      if ch = '"' || ch = '\'' then
        quotedFrom ch (cs.length + 1) [] false (.blanks []) (c.column + 1) cs
      else if ch = '[' then do
        let (items, stop) ← flowItems fuel (c.advance 1).flowToken
        return ⟨.list items, false, false, stop⟩
      else if ch = '\x7b' then do
        let (entries, stop) ← flowEntries fuel (c.advance 1).flowToken
        return ⟨.map entries, false, false, stop⟩
      else if startsNothing ch cs then none
      else plainFrom flow least [] false (.blanks []) c.column (ch :: cs)

/-- The value behind the colon of a flow pair; it may be missing before a separator. -/
def flowValue : Nat → Cursor → Option (Yaml × Cursor)
  | 0, _ => none
  | fuel + 1, c =>
    match c.rest with
    | ',' :: _ => some (.null, c)
    | ']' :: _ => some (.null, c)
    | '\x7d' :: _ => some (.null, c)
    | _ => do
      let a ← atom fuel true 0 c
      return (a.value, a.cursor.flowToken)

/-- The items of a flow sequence and its bracket. A pair stands for a mapping of one entry. -/
def flowItems : Nat → Cursor → Option (List Yaml × Cursor)
  | 0, _ => none
  | fuel + 1, c =>
    match c.rest with
    | ']' :: _ => some ([], c.advance 1)
    | _ => do
      let a ← atom fuel true 0 c
      let stop := a.cursor.flowToken
      let (item, stop) ←
        if flowColon stop (allowsAdjacent c) then do
          let (v, stop) ← flowValue fuel (stop.advance 1).flowToken
          pure (Yaml.map [(a.value, v)], stop)
        else pure (a.value, stop)
      match stop.rest with
      | ']' :: _ => return ([item], stop.advance 1)
      | ',' :: _ =>
        let (items, stop) ← flowItems fuel (stop.advance 1).flowToken
        return (item :: items, stop)
      | _ => none

/-- The entries of a flow mapping and its brace. A key alone has the value null. -/
def flowEntries : Nat → Cursor → Option (List (Yaml × Yaml) × Cursor)
  | 0, _ => none
  | fuel + 1, c =>
    match c.rest with
    | '\x7d' :: _ => some ([], c.advance 1)
    | _ => do
      let a ← atom fuel true 0 c
      let stop := a.cursor.flowToken
      let (v, stop) ←
        if flowColon stop (allowsAdjacent c) then flowValue fuel (stop.advance 1).flowToken
        else pure (Yaml.null, stop)
      match stop.rest with
      | '\x7d' :: _ => return ([(a.value, v)], stop.advance 1)
      | ',' :: _ =>
        let (entries, stop) ← flowEntries fuel (stop.advance 1).flowToken
        return ((a.value, v) :: entries, stop)
      | _ => none

end

/-! ## Blocks -/

mutual

/-- The node at a token, inside a node at column `parent`. `dash` allows a sequence at the column of
the parent, `fresh` a mapping or sequence on this line. -/
def blockNode : Nat → Int → Bool → Bool → Cursor → Option (Yaml × Cursor)
  | 0, _, _, _, _ => none
  | fuel + 1, parent, dash, fresh, c =>
    let atDash := c.atIndicator '-'
    let outside := (c.column : Int) ≤ parent && !(dash && (c.column : Int) = parent && atDash)
    if c.atEnd || outside then some (.null, c)
    else if atDash then
      if fresh then do
        let (items, stop) ← blockItems fuel c.column c
        return (.list items, stop)
      else none
    else do
      let a ← atom fuel false (parent + 1) c
      if a.crossed then return (a.value, a.cursor)
      let stop := a.cursor.skipInline
      if stop.atIndicator ':' then
        if fresh && !a.spans then
          let (entries, stop) ← blockEntries fuel c.column a.value (stop.advance 1)
          return (.map entries, stop)
        else none
      else if stop.lineDone then return (a.value, stop)
      else none

/-- The items of a block sequence at a column; a dash stands here. -/
def blockItems : Nat → Nat → Cursor → Option (List Yaml × Cursor)
  | 0, _, _ => none
  | fuel + 1, column, c => do
    let (inner, _) := (c.advance 1).skip false
    let (item, stop) ← blockNode fuel column false true inner
    let stop := stop.token
    if stop.column = column && stop.atIndicator '-' && !stop.atEnd then
      let (items, stop) ← blockItems fuel column stop
      return (item :: items, stop)
    else return ([item], stop)

/-- The entries of a block mapping at a column, from the value of the first key on. -/
def blockEntries : Nat → Nat → Yaml → Cursor → Option (List (Yaml × Yaml) × Cursor)
  | 0, _, _, _ => none
  | fuel + 1, column, key, c => do
    let (inner, crossed) := c.skip true
    let (v, stop) ← blockNode fuel column crossed crossed inner
    let stop := stop.token
    if stop.atEnd || stop.column < column then return ([(key, v)], stop)
    if stop.column ≠ column || stop.atIndicator '-' then none
    let a ← atom fuel false (column + 1) stop
    let colon := a.cursor.skipInline
    if a.crossed || a.spans || !colon.atIndicator ':' then none
    let (entries, stop) ← blockEntries fuel column a.value (colon.advance 1)
    return ((key, v) :: entries, stop)

end

/-! ## Documents -/

/-- A text with every kind of line end written as a line feed. -/
def normalizeBreaks : List Char → List Char
  | '\r' :: '\n' :: cs => '\n' :: normalizeBreaks cs
  | '\r' :: cs => '\n' :: normalizeBreaks cs
  | c :: cs => c :: normalizeBreaks cs
  | [] => []

/-- The text behind directives at its start, and whether there is one. -/
def skipDirectives : Nat → Cursor → Cursor × Bool
  | 0, c => (c, false)
  | fuel + 1, c =>
    if c.column = 0 && c.rest.head? = some '%' then
      ((skipDirectives fuel (Cursor.token ⟨c.rest.dropWhile (· ≠ '\n'), 1⟩)).1, true)
    else (c, false)

/-- Nothing but end marks follows. -/
def onlyEndMarks : Nat → Cursor → Bool
  | 0, c => c.rest.isEmpty
  | fuel + 1, c =>
    if c.atMark "..." then onlyEndMarks fuel (c.advance 3).token else c.rest.isEmpty

/-- The documents of a text, which may hold one at most. -/
def parse? (text : List Char) : Option (Option Yaml) := do
  let text := normalizeBreaks (text.takeWhile (· ≠ '\x00'))
  let fuel := 2 * text.length + 2
  let (start, directed) := skipDirectives fuel (Cursor.token ⟨text, 0⟩)
  if start.rest.isEmpty && !directed then return none
  let marked := start.atMark "---"
  if directed && !marked then failure
  let (body, crossed) := if marked then (start.advance 3).skip true else (start, true)
  let (v, stop) ← blockNode fuel (-1) false crossed body
  if onlyEndMarks fuel stop.token then return some v else failure

end PatternScan.Yaml

/-!
# JSON values

Values as far as the library has a use for them: a number is its literal, and a string that stands
for no text, because an escape in it is half of a surrogate pair, is kept apart. `Json.compact` and
`Json.pretty` write a value without blanks and over indented lines.
-/

namespace PatternScan

/-- A JSON value. -/
inductive Json
  | null
  | bool (b : Bool)
  /-- A number by its literal. -/
  | number (literal : List Char)
  | text (s : List Char)
  /-- A string that stands for no text. -/
  | brokenText
  | array (items : List Json)
  /-- An object; the key of a field is absent where it stands for no text. -/
  | object (fields : List (Option (List Char) × Json))
deriving Inhabited

namespace Json

/-- A natural number. -/
def natural (n : Nat) : Json :=
  .number (Nat.toDigits 10 n)

/-- A field of an object. -/
def field (name : String) (value : Json) : Option (List Char) × Json :=
  (some name.toList, value)

/-! ## Strings -/

/-- One character inside a string: quote, backslash and control characters are escaped. -/
def escapeChar (c : Char) : List Char :=
  if c = '"' then ['\\', '"']
  else if c = '\\' then ['\\', '\\']
  else if c = '\x08' then ['\\', 'b']
  else if c = '\t' then ['\\', 't']
  else if c = '\n' then ['\\', 'n']
  else if c = '\x0c' then ['\\', 'f']
  else if c = '\r' then ['\\', 'r']
  else if c.toNat < 0x20 then
    ['\\', 'u', '0', '0', Nat.digitChar (c.toNat / 16), Nat.digitChar (c.toNat % 16)]
  else [c]

/-- A string literal. -/
def quote (s : List Char) : List Char :=
  '"' :: s.flatMap escapeChar ++ ['"']

/-- A key or a string literal; one that stands for no text is written as half a pair. -/
def quote? : Option (List Char) → List Char
  | some s => quote s
  | none => "\"\\ud800\"".toList

/-! ## Compact form -/

mutual

/-- A value without blanks. -/
def compact : Json → List Char
  | null => "null".toList
  | bool true => "true".toList
  | bool false => "false".toList
  | number literal => literal
  | text s => quote s
  | brokenText => quote? none
  | array [] => ['[', ']']
  | array (v :: vs) => '[' :: (v.compact ++ compactItems vs)
  | object [] => ['\x7b', '\x7d']
  | object ((k, v) :: fs) => '\x7b' :: (quote? k ++ ':' :: (v.compact ++ compactFields fs))

/-- The items behind the first one, and the bracket. -/
def compactItems : List Json → List Char
  | [] => [']']
  | v :: vs => ',' :: (v.compact ++ compactItems vs)

/-- The fields behind the first one, and the brace. -/
def compactFields : List (Option (List Char) × Json) → List Char
  | [] => ['\x7d']
  | (k, v) :: fs => ',' :: (quote? k ++ ':' :: (v.compact ++ compactFields fs))

end

/-! ## Pretty form -/

/-- A new line at a depth of nesting, two blanks for each level. -/
def newLine (depth : Nat) : List Char :=
  '\n' :: List.replicate (2 * depth) ' '

mutual

/-- A value over lines, the first of which is not indented. -/
def prettyAt (depth : Nat) : Json → List Char
  | null => "null".toList
  | bool true => "true".toList
  | bool false => "false".toList
  | number literal => literal
  | text s => quote s
  | brokenText => quote? none
  | array [] => ['[', ']']
  | array (v :: vs) =>
    '[' :: (newLine (depth + 1) ++ v.prettyAt (depth + 1) ++ prettyItems depth vs)
  | object [] => ['\x7b', '\x7d']
  | object ((k, v) :: fs) =>
    '\x7b' :: (newLine (depth + 1) ++ quote? k ++ ':' :: ' ' ::
      (v.prettyAt (depth + 1) ++ prettyFields depth fs))

/-- The items behind the first one, and the bracket. -/
def prettyItems (depth : Nat) : List Json → List Char
  | [] => newLine depth ++ [']']
  | v :: vs => ',' :: (newLine (depth + 1) ++ v.prettyAt (depth + 1) ++ prettyItems depth vs)

/-- The fields behind the first one, and the brace. -/
def prettyFields (depth : Nat) : List (Option (List Char) × Json) → List Char
  | [] => newLine depth ++ ['\x7d']
  | (k, v) :: fs =>
    ',' :: (newLine (depth + 1) ++ quote? k ++ ':' :: ' ' ::
      (v.prettyAt (depth + 1) ++ prettyFields depth fs))

end

/-- A value over indented lines. -/
def pretty (v : Json) : List Char :=
  v.prettyAt 0

end Json

end PatternScan

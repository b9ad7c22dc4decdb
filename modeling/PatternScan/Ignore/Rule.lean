import PatternScan.Ignore.Glob
import PatternScan.Text.Blank

/-!
# Ignore rules

A line of an ignore file is a glob with marks around it: a leading `!` keeps what earlier lines
ignore, a slash at the end confines the rule to directories, and a slash elsewhere ties the glob to
the directory of the file, while a glob without one matches at any depth. Of the rules that match a
path the last one decides.
-/

namespace PatternScan.Ignore

/-- What a rule says of a path. -/
inductive Verdict
  | ignore
  | keep
deriving DecidableEq, Repr

/-- A rule for paths relative to a directory. -/
structure Rule where
  glob : Glob
  verdict : Verdict := .ignore
  directoriesOnly : Bool := false

namespace Rule

/-- The rule matches a path that leads to a directory or to a file. -/
def applies (r : Rule) (isDir : Bool) (path : String) : Bool :=
  (isDir || !r.directoriesOnly) && r.glob.isMatch (Text.Utf8.encode path.toList)

/-- A line without the blanks at its end; an escaped blank there keeps them all. -/
def trimLine (line : List Char) : List Char :=
  if [' ', '\\'].isPrefixOf line.reverse then line else Text.trimEnd Text.isBlank line

/-- A text without a slash at its end, and whether there was one; an escape of that slash goes with
it. -/
def dropSlash (text : List Char) : List Char × Bool :=
  match text.reverse with
  | '/' :: '\\' :: before => (before.reverse, true)
  | '/' :: before => (before.reverse, true)
  | _ => (text, false)

/-- A glob that is not tied to a directory may match at any depth. -/
def atAnyDepth (text : List Char) : List Char :=
  if "**/".toList.isPrefixOf text || text = "**".toList then text else "**/".toList ++ text

/-- A glob for everything in a directory does not match the directory itself. -/
def belowOnly (text : List Char) : List Char :=
  if "**/".toList.isPrefixOf text.reverse then text ++ "/*".toList else text

/-- The rule a line behind its marks stands for. -/
def ofBody? (verdict : Verdict) (tied : Bool) (body : List Char) : Option Rule := do
  let (text, directoriesOnly) := dropSlash body
  let text := if tied || text.contains '/' then text else atAnyDepth text
  return { glob := ← Glob.parse? (belowOnly text), verdict, directoriesOnly }

/-- The rule of a line; blank lines and comments hold none, and `none` is a line with a malformed
glob. -/
def ofLine? (line : List Char) : Option (Option Rule) :=
  let line := trimLine line
  let signed (verdict : Verdict) : List Char → Option (Option Rule)
    | '/' :: body => (ofBody? verdict true body).map some
    | body => (ofBody? verdict false body).map some
  match line with
  | [] => some none
  | '#' :: _ => some none
  | '\\' :: '!' :: body => (ofBody? .ignore false ('!' :: body)).map some
  | '\\' :: '#' :: body => (ofBody? .ignore false ('#' :: body)).map some
  | '!' :: body => signed .keep body
  | _ => signed .ignore line

end Rule

/-! ## Rule files -/

/-- The lines of a file up to the first one that is no text. A carriage return before a line feed
belongs to the line end, and byte order marks at the start do not count. -/
def linesOf (bytes : List UInt8) : List (List Char) :=
  let raw := bytes.splitOn 0x0A
  let ended := raw.dropLast.map fun line =>
    if line.getLast? = some 0x0D then line.dropLast else line
  match ((ended ++ raw.getLast?.toList).map Text.Utf8.decode?).takeWhile Option.isSome with
  | [] => []
  | first :: rest =>
    ((first.getD []).dropWhile (· = '\uFEFF')) :: rest.map fun line => line.getD []

/-- The rules of a file; lines with a malformed glob are passed over. -/
def rulesOf (bytes : List UInt8) : List Rule :=
  (linesOf bytes).filterMap fun line => (Rule.ofLine? line).join

/-- What the rules of a file say of a path. -/
def verdict? (rules : List Rule) (isDir : Bool) (path : String) : Option Verdict :=
  (rules.reverse.find? fun r => r.applies isDir path).map (·.verdict)

/-! ## Exclusions -/

/-- The rules of globs that leave out what they match, whatever the ignore files say; a `!` at the
start has no meaning here. A malformed glob is not accepted. -/
def exclusions? (globs : List String) : Option (List Rule) := do
  let rules ← globs.mapM fun glob => Rule.ofLine? ('!' :: glob.toList)
  return rules.filterMap id

/-- An exclusion matches a path. -/
def excluded (rules : List Rule) (isDir : Bool) (path : String) : Bool :=
  rules.any fun r => r.applies isDir path

end PatternScan.Ignore

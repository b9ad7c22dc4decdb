import PatternScan.FileTree
import PatternScan.Settings
import PatternScan.Yaml.Reader

/-!
# Configuration files

Settings are read from up to three files, the user's, the working directory's, and one that was
named; a later file overrides an earlier one key by key. The values are converted to what each field
needs: text from numbers, booleans from words, and the like.
-/

namespace PatternScan

namespace Yaml

mutual

/-- A value, or a value inside it under text keys, has no meaning. -/
def unreadable : Yaml → Bool
  | badFloat => true
  | list items => anyUnreadable items
  | map entries => anyUnreadableEntry entries
  | _ => false

/-- Some item has no meaning. -/
def anyUnreadable : List Yaml → Bool
  | [] => false
  | v :: vs => v.unreadable || anyUnreadable vs

/-- Some entry under a text key has no meaning. -/
def anyUnreadableEntry : List (Yaml × Yaml) → Bool
  | [] => false
  | (.text _, v) :: es => v.unreadable || anyUnreadableEntry es
  | _ :: es => anyUnreadableEntry es

end

/-- The boolean a value stands for. -/
def toBool? : Yaml → Option Bool
  | bool b => some b
  | int i => some (i ≠ 0)
  | float x => some x.isNonzero
  | text s =>
    let word := s.toLower
    if ["1", "true", "on", "yes"].contains word then some true
    else if ["0", "false", "off", "no"].contains word then some false
    else none
  | _ => none

/-- The largest natural number of 64 bits. -/
def maxNatural : Nat :=
  UInt64.size - 1

/-- The natural number of 64 bits a value stands for. -/
def toNatural? : Yaml → Option Nat
  | bool b => some b.toNat
  | int i => if 0 ≤ i then some i.toNat else none
  | float x => some (x.roundUpTo maxNatural)
  | text s =>
    let word := s.toLower
    if ["true", "on", "yes"].contains word then some 1
    else if ["false", "off", "no"].contains word then some 0
    else Text.word? s
  | _ => none

/-- The text a value stands for. -/
def toText? : Yaml → Option String
  | text s => some s
  | bool b => some (if b then "true" else "false")
  | int i => some (toString i)
  | float x => some x.text
  | _ => none

/-- The list of texts a value stands for. -/
def toTexts? : Yaml → Option (List String)
  | list items => items.mapM toText?
  | _ => none

end Yaml

namespace Settings

/-- The values of one or more files by key. -/
abbrev Table := List (String × Yaml)

/-- Sets a key. -/
def setKey (t : Table) (key : String) (v : Yaml) : Table :=
  (key, v) :: t.filter fun (k, _) => k != key

/-- Lays one value over another. A mapping is merged into what is there, so that an empty one
changes nothing and stands for null where nothing is there. -/
def layValue (older : Option Yaml) : Yaml → Yaml
  | .map [] => older.getD .null
  | v => v

/-- Lays the entries of a document over those of earlier files; only text keys count. -/
def layEntries (t : Table) (entries : List (Yaml × Yaml)) : Table :=
  let named := entries.foldl (fun named (k, v) => match k with
    | .text key => setKey named key v
    | _ => named) ([] : Table)
  named.foldl (fun t (key, v) => setKey t key (layValue (t.lookup key) v)) t

/-- A configuration that cannot be used. -/
def badFile : Error :=
  .config "invalid configuration"

/-- Lays the text of a file over the values of earlier files. A document that is no mapping says
nothing. -/
def layText (t : Table) (text : String) : Except Error Table :=
  match Yaml.parse? text.toList with
  | none => .error badFile
  | some none => .ok t
  | some (some v) =>
    if v.unreadable then .error badFile
    else match v with
      | .map entries => .ok (layEntries t entries)
      | _ => .ok t

/-- The value of a field: its default if the key is absent, else what the value converts to. -/
def readField {α : Type} (t : Table) (key : String) (dflt : α) (convert : Yaml → Option α) :
    Except Error α :=
  match t.lookup key with
  | none => .ok dflt
  | some v =>
    match convert v with
    | some x => .ok x
    | none => .error badFile

/-- An optional text: null stands for none. -/
def optionalText : Yaml → Option (Option String)
  | .null => some none
  | v => v.toText?.map some

/-- A positive number. -/
def positive (v : Yaml) : Option Nat :=
  v.toNatural?.filter (0 < ·)

/-- The settings in the values of the files. -/
def ofTable (processors : Nat) (t : Table) : Except Error Settings := do
  let dflt := defaults processors
  return {
    patternsFile := ← readField t "patterns_file" none optionalText
    hexPatterns := ← readField t "hex_patterns" false Yaml.toBool?
    automatonPath := ← readField t "automaton_path" none optionalText
    rootPath := ← readField t "root_path" dflt.rootPath Yaml.toText?
    ignorePatterns := ← readField t "ignore_patterns" [] Yaml.toTexts?
    firstOnly := ← readField t "first_only" false Yaml.toBool?
    statsOnly := ← readField t "stats_only" false Yaml.toBool?
    threadCount := ← readField t "thread_count" dflt.threadCount positive
    logLevel := ← readField t "log_level" dflt.logLevel Yaml.toText? }

/-- The settings in a list of configuration texts, later ones over earlier ones. -/
def ofTexts (processors : Nat) (texts : List String) : Except Error Settings := do
  ofTable processors (← texts.foldlM layText [])

/-- The name of the configuration file of a working directory. -/
def localName : String :=
  ".acscout.yaml"

/-- The text of a configuration file that has to be there and to be text. -/
def readText (fs : FileSystem) (path : String) : Except Error String :=
  match fs.read path with
  | .error _ => .error badFile
  | .ok data =>
    match String.fromUTF8? data with
    | some text => .ok text
    | none => .error badFile

/-- The text of a configuration file, if something is there. -/
def readIfThere (fs : FileSystem) (path : String) : Except Error (List String) :=
  if fs.exists? path then (readText fs path).map ([·]) else .ok []

/-- The extensions a configuration file may have. -/
def extensions : List String :=
  ["yaml", "yml"]

/-- A file stands at the end of a path. -/
def isFile (fs : FileSystem) (path : String) : Bool :=
  (fs.read path).toBool

/-- The text of the configuration file that was named. A file that is there has to have an extension
of the format; a name that leads to no file is tried with an extension. -/
def readNamed (fs : FileSystem) (path : String) : Except Error String :=
  if isFile fs path then
    match (Path.components path).getLast? with
    | some (.name s) =>
      if (Path.extension? s).any extensions.contains then readText fs path else .error badFile
    | _ => .error badFile
  else
    match (extensions.map fun ext => path ++ "." ++ ext).find? (isFile fs) with
    | some path => readText fs path
    | none => .error badFile

/-- The settings in the files: the user's text, that of the working directory, and that of the named
file. -/
def load (fs : FileSystem) (processors : Nat) (user : Option String) (named : Option String) :
    Except Error Settings := do
  let working ← readIfThere fs localName
  let custom ← match named with
    | some path => do pure [← readNamed fs path]
    | none => pure []
  ofTexts processors (user.toList ++ working ++ custom)

end Settings

end PatternScan

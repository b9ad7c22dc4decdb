import PatternScan.Error
import PatternScan.Path

/-!
# Trees of files

A file system as a value: a tree of directories with files as leaves, and the directory relative
paths start from. Paths are resolved name by name, so that a path through a file or a missing
directory leads nowhere even if it goes up again.
-/

namespace PatternScan

/-- A file or a directory. -/
inductive FileTree
  | file (data : ByteArray)
  | dir (entries : List (String × FileTree))

namespace FileTree

instance : Inhabited FileTree := ⟨.dir []⟩

/-- The entries of a directory. -/
def entries : FileTree → List (String × FileTree)
  | file _ => []
  | dir es => es

/-- The entry under a name. -/
def child? (t : FileTree) (name : String) : Option FileTree :=
  t.entries.lookup name

/-- Replaces or adds an entry. -/
def setEntry (name : String) (t : FileTree) : List (String × FileTree) → List (String × FileTree)
  | [] => [(name, t)]
  | (n, u) :: es => if n = name then (name, t) :: es else (n, u) :: setEntry name t es

/-- Puts a tree at a place, making the directories on the way. -/
def insert (t node : FileTree) : List String → FileTree
  | [] => node
  | name :: names =>
    let below := (t.child? name).getD (.dir [])
    .dir (setEntry name (below.insert node names) t.entries)

/-- What stands at a place. -/
def find? (t : FileTree) : List String → Option FileTree
  | [] => some t
  | name :: names => (t.child? name).bind (find? · names)

end FileTree

/-- A tree of files and the names that lead to the working directory. -/
structure FileSystem where
  top : FileTree := .dir []
  cwd : List String := []
deriving Inhabited

namespace FileSystem

/-- A path leads through a file. -/
def notDirectory : AccessFailure :=
  .other "Not a directory (os error 20)"

/-- A directory stands where a file is needed. -/
def isDirectory : AccessFailure :=
  .other "Is a directory (os error 21)"

/-- Resolves components from a place on: the names from the top to the place reached. Going up from
the top stays there. -/
def resolve (fs : FileSystem) (place : List String) : List Path.Component →
    Except AccessFailure (List String)
  | [] => .ok place
  | c :: cs =>
    match fs.top.find? place with
    | none => .error .notFound
    | some (.file _) => .error notDirectory
    | some (.dir es) =>
      match c with
      | .root => resolve fs [] cs
      | .here => resolve fs place cs
      | .up => resolve fs place.dropLast cs
      | .name s => if (es.lookup s).isSome then resolve fs (place ++ [s]) cs else .error .notFound

/-- The place a path leads to and what stands there. -/
def locate (fs : FileSystem) (path : String) : Except AccessFailure (List String × FileTree) := do
  if path.isEmpty then throw .notFound
  let place ← fs.resolve fs.cwd (Path.components path)
  match fs.top.find? place with
  | none => throw .notFound
  | some (.file data) =>
    if Path.demandsDirectory path then throw notDirectory
    return (place, .file data)
  | some (.dir es) => return (place, .dir es)

/-- Something stands at the end of a path. -/
def exists? (fs : FileSystem) (path : String) : Bool :=
  (fs.locate path).toBool

/-- The bytes of a file. -/
def read (fs : FileSystem) (path : String) : Except Error ByteArray :=
  match fs.locate path with
  | .error e => .error (e.error path)
  | .ok (_, .file data) => .ok data
  | .ok (_, .dir _) => .error (isDirectory.error path)

/-- The place at which a file of a path would be made: its directory has to be there. -/
def placeToWrite (fs : FileSystem) (path : String) : Except AccessFailure (List String) := do
  match (Path.components path).reverse with
  | .name s :: parents =>
    let place ← fs.resolve fs.cwd parents.reverse
    match fs.top.find? place with
    | some (.dir es) =>
      match es.lookup s with
      | some (.dir _) => throw isDirectory
      | some (.file _) => if Path.demandsDirectory path then throw notDirectory
      | none => if Path.demandsDirectory path then throw isDirectory
      return place ++ [s]
    | some (.file _) => throw notDirectory
    | none => throw .notFound
  | [] => throw .notFound
  | parents =>
    let _ ← fs.resolve fs.cwd parents.reverse
    throw isDirectory

/-- Writes a file, replacing an older one. -/
def write (fs : FileSystem) (path : String) (data : ByteArray) : Except Error FileSystem :=
  match fs.placeToWrite path with
  | .error e => .error (e.error path)
  | .ok place => .ok { fs with top := fs.top.insert (.file data) place }

/-- Adds a tree below the working directory under a relative path, making the directories on the
way. -/
def add (fs : FileSystem) (path : String) (node : FileTree) : FileSystem :=
  let names := (Path.components path).filterMap fun
    | .name s => some s
    | _ => none
  { fs with top := fs.top.insert node (fs.cwd ++ names) }

end FileSystem

end PatternScan

import PatternScan.FileTree
import PatternScan.Ignore.Rule

/-!
# Walking a tree

The files below a root, without what is ignored. Exclusions come first, then the ignore files of the
directories on the way, the innermost first, then the ignore files of a repository and its list of
exclusions, both up to the directory of the repository. What no rule decides is left out if its name
is hidden. A directory that is left out is not entered; the root is never left out.
-/

namespace PatternScan.Ignore

/-- What a directory contributes to the rules for everything below it. -/
structure Level where
  /-- The name of the directory. -/
  name : String
  /-- The rules of its ignore file. -/
  rules : List Rule
  /-- The rules of the ignore file that counts inside a repository. -/
  repositoryRules : List Rule
  /-- The exclusions of the repository, if it is one. -/
  repositoryExclusions : List Rule
  isRepository : Bool

namespace Level

/-- The rules in a file below a directory, if it is there. -/
def rulesAt (t : FileTree) (place : List String) : List Rule :=
  match t.find? place with
  | some (.file data) => rulesOf data.data.toList
  | _ => []

/-- What a directory contributes. -/
def ofTree (name : String) (t : FileTree) : Level :=
  { name
    rules := rulesAt t [".ignore"]
    repositoryRules := rulesAt t [".gitignore"]
    repositoryExclusions := rulesAt t [".git", "info", "exclude"]
    isRepository := (t.child? ".git").isSome }

end Level

/-- The verdict of the innermost level that has one on a path relative to the first level. -/
def innermost? (rules : Level → List Rule) (isDir : Bool) : List Level → String → Option Verdict
  | [], _ => none
  | level :: levels, path =>
    (verdict? (rules level) isDir path).orElse fun _ =>
      innermost? rules isDir levels (level.name ++ "/" ++ path)

/-- The levels up to the directory of the repository they are in; none outside of one. -/
def repository : List Level → List Level
  | [] => []
  | level :: levels =>
    if level.isRepository then [level]
    else match repository levels with
      | [] => []
      | inside => level :: inside

/-- What the levels say of an entry of the first one. -/
def entryVerdict? (levels : List Level) (isDir : Bool) (name : String) : Option Verdict :=
  let inside := repository levels
  (innermost? Level.rules isDir levels name).orElse fun _ =>
    (innermost? Level.repositoryRules isDir inside name).orElse fun _ =>
      innermost? Level.repositoryExclusions isDir inside name

/-- A name that is left out unless a rule keeps it: it starts with a dot and does not end with
one. -/
def isHidden (name : String) : Bool :=
  name.startsWith "." && !name.endsWith "."

/-- An entry of the first level is left out; `path` leads to it from the root. -/
def leftOut (exclusions : List Rule) (levels : List Level) (isDir : Bool) (path name : String) :
    Bool :=
  excluded exclusions isDir path ||
    match entryVerdict? levels isDir name with
    | some v => v = .ignore
    | none => isHidden name

/-- An entry is a directory. -/
def isDirectory : FileTree → Bool
  | .file _ => false
  | .dir _ => true

mutual

/-- The files of a tree that stands at `path`; `below` leads to its entries from the root. -/
def files (exclusions : List Rule) (levels : List Level) (path below name : String) :
    FileTree → List String
  | .file _ => [path]
  | .dir es => entryFiles exclusions (Level.ofTree name (.dir es) :: levels) path below es

/-- The files among the entries of the first level. -/
def entryFiles (exclusions : List Rule) (levels : List Level) (path below : String) :
    List (String × FileTree) → List String
  | [] => []
  | (name, t) :: es =>
    let here :=
      if leftOut exclusions levels (isDirectory t) (below ++ name) name then []
      else files exclusions levels (Path.join path name) (below ++ name ++ "/") name t
    here ++ entryFiles exclusions levels path below es

end

/-- What the directories on the way from a tree down to a place contribute, that of the place itself
left out. -/
def levelsAbove (levels : List Level) (name : String) (t : FileTree) : List String → List Level
  | [] => levels
  | n :: names =>
    match t.child? n with
    | some u => levelsAbove (Level.ofTree name t :: levels) n u names
    | none => levels

/-- The paths of the files below a root that leads to a place with a tree. -/
def walk (fs : FileSystem) (exclusions : List Rule) (root : String) (place : List String)
    (t : FileTree) : List String :=
  files exclusions (levelsAbove [] "" fs.top place) root "" (place.getLast?.getD "") t

end PatternScan.Ignore

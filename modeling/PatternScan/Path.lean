/-!
# Paths

A path is a text of names with slashes between them. What it leads to, and how paths compare,
depends on its components only: repeated slashes, a slash at the end, and dots inside say nothing, a
leading dot or slash does.
-/

namespace PatternScan.Path

/-- A component of a path. -/
inductive Component
  /-- The slash a path starts with. -/
  | root
  /-- A leading dot. -/
  | here
  /-- Two dots. -/
  | up
  | name (s : String)
deriving DecidableEq, Repr, Inhabited

namespace Component

/-- The order of the kinds of components. -/
def rank : Component → Nat
  | root => 0
  | here => 1
  | up => 2
  | name _ => 3

/-- Kinds first, then names by their bytes. -/
def compare : Component → Component → Ordering
  | name a, name b => Ord.compare a b
  | a, b => Ord.compare a.rank b.rank

end Component

/-- The component a part between slashes stands for; `first` if it is the first one of a relative
path. -/
def component? (first : Bool) (part : String) : Option Component :=
  if part = "" then none
  else if part = "." then if first then some .here else none
  else if part = ".." then some .up
  else some (.name part)

/-- The components of a path. -/
def components (path : String) : List Component :=
  match (path.toList.splitOn '/').map String.ofList with
  | [] => []
  | head :: parts =>
    let rest := parts.filterMap (component? false)
    if head = "" ∧ parts ≠ [] then .root :: rest else (component? true head).toList ++ rest

/-- Compares component by component, a path that runs out first. -/
def compareComponents : List Component → List Component → Ordering
  | [], [] => .eq
  | [], _ :: _ => .lt
  | _ :: _, [] => .gt
  | a :: as, b :: bs =>
    match a.compare b with
    | .eq => compareComponents as bs
    | o => o

/-- The order of paths. -/
def compare (a b : String) : Ordering :=
  compareComponents (components a) (components b)

/-- Two texts are the same path. -/
def same (a b : String) : Bool :=
  components a = components b

/-- A name below a path. -/
def join (path name : String) : String :=
  if path.isEmpty || path.endsWith "/" then path ++ name else path ++ "/" ++ name

/-- The path can only lead to a directory: its text ends in a slash or in a slash and a dot. -/
def demandsDirectory (path : String) : Bool :=
  path.endsWith "/" || path.endsWith "/."

/-- The part behind the last dot of a name that does not start with it. -/
def extension? (name : String) : Option String :=
  match (name.toList.reverse.span (· != '.')) with
  | (ext, _ :: stem) => if stem.isEmpty then none else some (String.ofList ext.reverse)
  | (_, []) => none

end PatternScan.Path

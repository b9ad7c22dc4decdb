import PatternScan.Container.Defect
import PatternScan.Text.Hex

/-!
# Errors

What can go wrong outside a pure computation on bytes, each cause with its text.
-/

namespace PatternScan

/-- A failed operation. -/
inductive Error
  | fileNotFound (path : String)
  | permissionDenied (path : String)
  /-- A line of a pattern file, counted from 1, is no hexadecimal pattern. -/
  | invalidHex (line : Nat) (cause : Text.Hex.Defect)
  /-- A container holds no automaton. -/
  | decode (reason : String)
  | config (reason : String)
  | io (reason : String)
deriving DecidableEq, Repr

namespace Error

/-- The text of an error. -/
def message : Error → String
  | fileNotFound path => "File not found: " ++ path
  | permissionDenied path => "Permission denied: " ++ path
  | invalidHex line cause => s!"Invalid hex pattern on line {line}: {cause.message}"
  | decode reason => "Decode error: " ++ reason
  | config reason => "Configuration error: " ++ reason
  | io reason => "IO error: " ++ reason

/-- The error of a container that could not be read. -/
def ofFailure : Container.Failure → Error
  | .defect d => .decode d.message
  | .stream f => .io f.text

end Error

/-- The ways in which access to a file fails. -/
inductive AccessFailure
  | notFound
  | denied
  | other (text : String)
deriving DecidableEq, Repr

/-- The error of a failed access to a path. -/
def AccessFailure.error (path : String) : AccessFailure → Error
  | notFound => .fileNotFound path
  | denied => .permissionDenied path
  | other text => .io text

end PatternScan

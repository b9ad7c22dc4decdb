import PatternScan.StateId
import PatternScan.ByteStream

/-!
# What can be wrong with a container

Causes, each with its text. A container that breaks off or is corrupt is blamed on the field that
was being read.
-/

namespace PatternScan.Container

/-- The four columns of the table, in the order in which a container holds them. -/
inductive Column
  | len
  | next
  | link
  | pattern
deriving DecidableEq, Repr

/-- The parts of a container, as far as they are read one after the other. -/
inductive Field
  /-- The element count of a column. -/
  | count (c : Column)
  | column (c : Column)
  /-- What follows the last column. -/
  | trailing
deriving DecidableEq, Repr

/-- The name of a field. -/
def Field.name : Field → String
  | count .len => "dict_len count"
  | count .next => "transition row count"
  | count .link => "dict_link count"
  | count .pattern => "pattern count"
  | column .len => "dict_len"
  | column .next => "transition table"
  | column .link => "dict_link"
  | column .pattern => "pattern"
  | trailing => "trailing data"

/-- A defect of a container. -/
inductive Defect
  /-- The data ends inside a field. -/
  | endsIn (field : Field)
  /-- The stream is corrupt inside a field. -/
  | corruptIn (field : Field) (reason : String)
  | countsDisagree (len next link pattern : Nat)
  | missingRoot (states : Nat)
  | tooLarge (states : Nat)
  | extraData
  | badTarget (state : StateId) (byte : Nat) (target : StateId)
  | reservedState (state : StateId)
  | badLink (state target : StateId)
  | linkNotShorter (state : StateId)
  | matchTooLong (state : StateId) (len depth : Nat)
deriving DecidableEq, Repr

/-- The text of a defect. -/
def Defect.message : Defect → String
  | endsIn field => s!"unexpected end of stream while reading {field.name}"
  | corruptIn field reason => s!"corrupt stream while reading {field.name}: {reason}"
  | countsDisagree len next link pattern =>
    s!"header counts disagree: dict_len={len}, trans={next}, dict_link={link}, pattern={pattern}"
  | missingRoot states => s!"state count {states} is missing the root"
  | tooLarge states => s!"state count {states} is too large"
  | extraData => "unexpected data after the last array"
  | badTarget state byte target =>
    s!"transition from state {state} on byte {byte} targets invalid state {target}"
  | reservedState state => s!"reserved state {state} must not accept or link"
  | badLink state target =>
    s!"dictionary link of state {state} targets non-accepting state {target}"
  | linkNotShorter state => s!"dictionary link of state {state} does not shorten the match"
  | matchTooLong state len depth =>
    s!"state {state} reports a {len}-byte match but is reachable after {depth} bytes"

/-- Why no automaton could be read: the container is defective, or its stream failed. -/
inductive Failure
  | defect (d : Defect)
  | stream (f : Fault)
deriving DecidableEq, Repr

/-- A stream that stops with `e` while bytes of `field` are missing. -/
def Failure.ofEnding (field : Field) : Ending → Failure
  | .clean => .defect (.endsIn field)
  | .fault ⟨.unexpectedEnd, _⟩ => .defect (.endsIn field)
  | .fault ⟨.invalid, reason⟩ => .defect (.corruptIn field reason)
  | .fault f => .stream f

end PatternScan.Container

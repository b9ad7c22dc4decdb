import PatternScan.Pool

/-!
# Loans by name

A desk keeps a pool together with the buffers that are out, each under the name of its holder. It
steps by one action at a time, so that every history of loans, writes and returns is a list of
steps. Taking out a buffer under a name that already holds one returns the older one afterwards.
-/

namespace PatternScan

/-- A pool and the buffers it has lent, by holder. -/
structure Desk where
  pool : Pool
  held : List (String × Buffer) := []
deriving DecidableEq, Inhabited

namespace Desk

/-- What a holder can do with a buffer in hand. -/
inductive Use
  | push (records : Array Occurrence)
  | reserve (count : Nat)
  | clear
  | release
  /-- Copies the records out and returns the buffer. -/
  | intoRecords
deriving DecidableEq, Repr

/-- What a holder can do. -/
inductive Action
  | acquire
  | use (u : Use)
deriving DecidableEq, Repr

/-- What a holder sees of an action. -/
inductive Outcome
  | len (n : Nat)
  | records (os : Array Occurrence)
  /-- The name holds no buffer. -/
  | noLoan
deriving DecidableEq, Repr

/-- The buffer under a name. -/
def loan? (d : Desk) (holder : String) : Option Buffer :=
  d.held.lookup holder

/-- The loans of all other holders. -/
def others (d : Desk) (holder : String) : List (String × Buffer) :=
  d.held.filter fun (name, _) => name != holder

/-- Puts a changed buffer back into its holder's hand. -/
def update (d : Desk) (holder : String) (b : Buffer) : Desk × Outcome :=
  ({ d with held := (holder, b) :: d.others holder }, .len b.len)

/-- Returns a buffer to the pool and strikes its holder. -/
def giveBack (d : Desk) (holder : String) (b : Buffer) : Desk :=
  ⟨d.pool.release b, d.others holder⟩

/-- Lends a buffer under a name. -/
def acquire (d : Desk) (holder : String) : Desk × Outcome :=
  let (b, pool) := d.pool.acquire
  let older := (d.loan? holder).toList
  (⟨older.foldl Pool.release pool, (holder, b) :: d.others holder⟩, .len b.len)

/-- Uses the buffer `b` that is in the hand of `holder`. -/
def useLoan (d : Desk) (holder : String) (b : Buffer) : Use → Desk × Outcome
  | .push os => d.update holder (b.append os)
  | .reserve n => d.update holder (b.reserve n)
  | .clear => d.update holder b.clear
  | .release => (d.giveBack holder b, .len b.len)
  | .intoRecords => (d.giveBack holder b, .records b.records)

/-- One action of one holder. -/
def step (d : Desk) (holder : String) : Action → Desk × Outcome
  | .acquire => d.acquire holder
  | .use u =>
    match d.loan? holder with
    | some b => d.useLoan holder b u
    | none => (d, .noLoan)

/-- The desk after a history of actions. -/
def run (d : Desk) (history : List (String × Action)) : Desk :=
  history.foldl (fun d (holder, action) => (d.step holder action).1) d

end Desk

end PatternScan

import PatternScan.CommandLine.Command
import PatternScan.Report.Json
import PatternScan.Scan.Tree
import PatternScan.Settings.Files

/-!
# Running a command

A command is a function of the files, the number of processors and the text of the user's
configuration file, if there is one. It gives the files as it leaves them and an outcome: what is
printed, and a code that is 0 on success, 1 on failure and 2 for a command line that is wrong.
-/

namespace PatternScan

/-- What an error was caused by, each cause by the next one. -/
def Error.causes : Error → List String
  | invalidHex _ cause => [cause.message]
  | io reason => [reason]
  | _ => []

namespace CommandLine

/-- What a command has done. -/
structure Outcome where
  code : UInt8 := 0
  out : String := ""
  err : String := ""
  /-- What is to be told about the work. -/
  notices : List Notice := []
  /-- A file that was written, by its path. -/
  written : Option (String × ByteArray) := none

/-! ## Errors -/

/-- A cause with its lines indented; of several causes each has its number. -/
def causeText (several : Bool) (i : Nat) (text : String) : String :=
  let head := if several then s!"    {i}: " else "    "
  let indent := if several then "\n       " else "\n    "
  "\n" ++ head ++ indent.intercalate (text.splitOn "\n")

/-- The text of a failure and of its causes. -/
def failureText (text : String) (causes : List String) : String :=
  let several := 1 < causes.length
  let tail :=
    if causes.isEmpty then ""
    else "\n\nCaused by:" ++ String.join (causes.mapIdx (causeText several))
  "Error: " ++ text ++ tail ++ "\n"

/-- The outcome of a command that failed. -/
def Outcome.ofError (e : Error) : Outcome :=
  { code := 1, err := failureText e.message e.causes }

/-- The outcome of a command that could not write a file. -/
def Outcome.ofWriteError (path : String) (e : Error) : Outcome :=
  { code := 1, err := failureText ("failed to write " ++ path) (e.message :: e.causes) }

/-! ## What is printed -/

/-- The totals of a report. -/
def totals (r : Report) : String :=
  s!"Found {r.total} matches in {r.matched} of {r.searched} files\n"

/-- An occurrence on a line. -/
def occurrenceLine (o : Occurrence) : String :=
  s!"{o.start}..{o.stop}: pattern {o.pattern} ({o.len} bytes)\n"

/-- What was found in a file, if anything. -/
def fileLines (f : FileResult) : String :=
  if f.found.isEmpty then ""
  else "\n" ++ f.path ++ "\n" ++ String.join (f.found.toList.map occurrenceLine)

/-- A report as text: the totals, and unless only they are wanted what was found in each file. -/
def reportText (statsOnly : Bool) (r : Report) : String :=
  if statsOnly then totals r
  else String.join (r.results.toList.map fileLines) ++ "\n" ++ totals r

/-- The measures of an automaton under the path of its container. -/
def automatonText (path : String) (a : Automaton) : String :=
  path ++ "\n" ++ s!"States:            {a.size}\n" ++
    s!"Accepting states:  {a.acceptingCount}\n" ++
    s!"Longest pattern:   {a.maxPatternLen} bytes\n" ++ s!"Table size:        {a.heapSize} bytes\n"

/-- The text on how to use the program. -/
def helpText : String :=
  "Usage: acscout [-v]... COMMAND [OPTIONS]\n\n" ++
  "Commands:\n" ++
  "  compile  Build an automaton from a pattern file and write it to disk\n" ++
  "  scan     Scan a directory tree for every pattern occurrence\n" ++
  "  inspect  Print statistics about a compiled automaton\n" ++
  "  help     Print this text\n\n" ++
  "Options of compile:\n" ++
  "  -p, --patterns FILE    Pattern file, one pattern per line\n" ++
  "      --hex              Decode each pattern line as hex bytes\n" ++
  "  -o, --output FILE      Where to write the compiled automaton\n\n" ++
  "Options of scan:\n" ++
  "  -p, --patterns FILE    Pattern file, one pattern per line\n" ++
  "      --hex              Decode each pattern line as hex bytes\n" ++
  "  -a, --automaton FILE   Compiled automaton to search with\n" ++
  "  -d, --root PATH        Root directory to scan, by default the working directory\n" ++
  "      --first            Report only the first match in each file\n" ++
  "  -s, --stats            Show only statistics, not matches\n" ++
  "      --json             Print results as JSON\n" ++
  "  -i, --ignore GLOB      What to leave out; may be repeated\n" ++
  "  -j, --threads N        Number of threads to use\n" ++
  "  -c, --config FILE      Configuration file layered over the default locations\n\n" ++
  "Options everywhere:\n" ++
  "  -v, --verbose          Tell more about the work; may be repeated\n" ++
  "  -h, --help             Print this text\n" ++
  "  -V, --version          Print the version, in front of a command\n"

/-- The name and version of the program. -/
def versionText : String :=
  "acscout-cli 0.1.0\n"

/-! ## Commands -/

/-- The notices that a level covers. -/
def covered (level : String) (notices : List Notice) : List Notice :=
  notices.filter fun n => (Notice.Level.covered level).contains n.level

/-- The level that belongs to a verbosity. -/
def levelOf : Nat → String
  | 0 => "warn"
  | 1 => "info"
  | 2 => "debug"
  | _ => "trace"

/-- Compiles a pattern file and writes the automaton. -/
def runCompile (fs : FileSystem) (level patterns : String) (hex : Bool) (output : String) :
    Outcome × FileSystem :=
  match PatternFile.load fs (if hex then .hex else .literal) patterns with
  | .error e => (.ofError e, fs)
  | .ok (b, notices) =>
    let a := b.build
    match Container.save fs output a with
    | .error e => (.ofWriteError output e, fs)
    | .ok fs =>
      let out := s!"Compiled {b.patternCount} patterns into {a.size} states: {output}\n"
      let notices := notices ++ [b.buildNotice, Container.encodeNotice a]
      ({ out, notices := covered level notices, written := some (output, Container.encode a) }, fs)

/-- The settings of a scan: those of the command line over those of the configuration files. -/
def effectiveSettings (fs : FileSystem) (processors : Nat) (user : Option String)
    (o : ScanOptions) : Except Error Settings := do
  let files ← Settings.load fs processors user o.config
  return files.merge processors (o.settings processors)

/-- Scans a tree. -/
def runScan (fs : FileSystem) (processors : Nat) (user : Option String) (verbosity : Nat)
    (o : ScanOptions) : Except Error Outcome := do
  let s ← effectiveSettings fs processors user o
  let level := if verbosity = 0 then s.logLevel else levelOf verbosity
  let (a, notices) ← s.automaton fs
  let (r, stats) ← s.scan fs a
  let out := if o.json then r.pretty ++ "\n" else reportText s.statsOnly r
  return { out, notices := covered level (notices ++ [stats.notice]) }

/-- Inspects a compiled automaton. -/
def runInspect (fs : FileSystem) (level path : String) : Except Error Outcome := do
  let a ← Container.load fs path
  return { out := automatonText path a, notices := covered level [Container.decodeNotice a] }

/-- The outcome of a command, which failed or did not. -/
def outcomeOf (result : Except Error Outcome) : Outcome :=
  match result with
  | .ok outcome => outcome
  | .error e => .ofError e

/-- Carries out what an invocation asks for. -/
def perform (fs : FileSystem) (processors : Nat) (user : Option String) (v : Invocation) :
    Outcome × FileSystem :=
  let level := levelOf v.verbosity
  match v.command with
  | .compile patterns hex output => runCompile fs level patterns hex output
  | .scan o => (outcomeOf (runScan fs processors user v.verbosity o), fs)
  | .inspect path => (outcomeOf (runInspect fs level path), fs)

/-- The outcome of a command line that leads to no command. -/
def Outcome.ofStop : Stop → Outcome
  | .help => { out := helpText }
  | .version => { out := versionText }
  | .usage e => { code := 2, err := "error: " ++ e.message ++ "\n" }

/-- Runs a command line. -/
def run (fs : FileSystem) (processors : Nat) (user : Option String) (words : List String) :
    Outcome × FileSystem :=
  match Invocation.ofWords words with
  | .error s => (.ofStop s, fs)
  | .ok v => perform fs processors user v

end CommandLine

end PatternScan

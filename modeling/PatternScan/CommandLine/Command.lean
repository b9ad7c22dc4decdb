import PatternScan.CommandLine.Options
import PatternScan.Settings
import PatternScan.Text.Digits

/-!
# Commands

The program compiles a pattern file, scans a tree, or inspects a compiled automaton.
`Invocation.ofWords` reads a command line.
-/

namespace PatternScan.CommandLine

/-- The options of a scan. -/
structure ScanOptions where
  patterns : Option String := none
  hex : Bool := false
  automaton : Option String := none
  root : Option String := none
  first : Bool := false
  stats : Bool := false
  json : Bool := false
  ignore : List String := []
  threads : Option Nat := none
  config : Option String := none
deriving DecidableEq, Repr

namespace ScanOptions

/-- The options as settings; what is not given has its default. -/
def settings (processors : Nat) (o : ScanOptions) : Settings :=
  let dflt := Settings.defaults processors
  { dflt with
    patternsFile := o.patterns
    hexPatterns := o.hex
    automatonPath := o.automaton
    rootPath := o.root.getD dflt.rootPath
    ignorePatterns := o.ignore
    firstOnly := o.first
    statsOnly := o.stats
    threadCount := o.threads.getD dflt.threadCount }

end ScanOptions

/-- What the program is to do. -/
inductive Command
  | compile (patterns : String) (hex : Bool) (output : String)
  | scan (options : ScanOptions)
  | inspect (automaton : String)
deriving DecidableEq, Repr

/-- A command and how much is to be told about its work. -/
structure Invocation where
  verbosity : Nat
  command : Command
deriving DecidableEq, Repr

/-! ## The options of each command -/

/-- A path must not be empty. -/
def acceptsPath (value : String) : Bool :=
  !value.isEmpty

/-- A positive number of 64 bits. -/
def positive? (value : String) : Option Nat :=
  (Text.word? value).filter (0 < ·)

/-- Options that every command has. -/
def commonOptions : List OptionSpec :=
  [⟨"verbose", some 'v', .counter⟩, ⟨"help", some 'h', .stop .help⟩]

/-- Options in front of the command. -/
def leadingOptions : List OptionSpec :=
  ⟨"version", some 'V', .stop .version⟩ :: commonOptions

/-- The options of a compilation. -/
def compileOptions : List OptionSpec :=
  [⟨"patterns", some 'p', .value acceptsPath⟩, ⟨"hex", none, .switch⟩,
    ⟨"output", some 'o', .value acceptsPath⟩] ++ commonOptions

/-- The options of a scan. -/
def scanOptions : List OptionSpec :=
  [⟨"patterns", some 'p', .value acceptsPath⟩, ⟨"hex", none, .switch⟩,
    ⟨"automaton", some 'a', .value acceptsPath⟩, ⟨"root", some 'd', .value acceptsPath⟩,
    ⟨"first", none, .switch⟩, ⟨"stats", some 's', .switch⟩, ⟨"json", none, .switch⟩,
    ⟨"ignore", some 'i', .values fun _ => true⟩,
    ⟨"threads", some 'j', .value fun value => (positive? value).isSome⟩,
    ⟨"config", some 'c', .value acceptsPath⟩] ++ commonOptions

/-! ## Reading a command line -/

/-- The value of an option that has to be given. -/
def required (g : Given) (name : String) : Except Stop String :=
  match g.value? name with
  | some value => .ok value
  | none => .error (.usage (.missing name))

/-- The command of a compilation. -/
def compileCommand (g : Given) : Except Stop Command := do
  return .compile (← required g "patterns") (g.has "hex") (← required g "output")

/-- The command of a scan; patterns come from one source. -/
def scanCommand (g : Given) : Except Stop Command :=
  if g.has "patterns" && g.has "automaton" then
    .error (.usage (.conflict "patterns" "automaton"))
  else
    .ok (.scan
      { patterns := g.value? "patterns"
        hex := g.has "hex"
        automaton := g.value? "automaton"
        root := g.value? "root"
        first := g.has "first"
        stats := g.has "stats"
        json := g.has "json"
        ignore := g.values "ignore"
        threads := (g.value? "threads").bind positive?
        config := g.value? "config" })

/-- The command of an inspection. -/
def inspectCommand (g : Given) : Except Stop Command :=
  match g.operands with
  | path :: _ => .ok (.inspect path)
  | [] => .error (.usage (.missing "automaton"))

/-- How often a report on the work has been asked for. -/
def verbosity (g : Given) : Nat :=
  (g.values "verbose").length

/-- The words behind a command that asks for help are names of commands. -/
def helpOn : List String → Stop
  | [] => .help
  | [name] =>
    if ["compile", "scan", "inspect", "help"].contains name then .help
    else .usage (.unknownCommand name)
  | name :: word :: _ =>
    if ["compile", "scan", "inspect", "help"].contains name then .usage (.unknownCommand word)
    else .usage (.unknownCommand name)

/-- The invocation that a command with its words stands for. -/
def commandOf (leading : Given) (specs : List OptionSpec) (accepts : List (String → Bool))
    (read : Given → Except Stop Command) (words : List String) : Except Stop Invocation := do
  let g ← addWords specs accepts words {}
  return ⟨verbosity leading + verbosity g, ← read g⟩

/-- The invocation that a command line stands for. -/
def Invocation.ofWords (words : List String) : Except Stop Invocation := do
  let (leading, rest) := words.span isOption
  let g ← addWords leadingOptions [] leading {}
  match rest with
  | [] => throw (.usage .noCommand)
  | "compile" :: rest => commandOf g compileOptions [] compileCommand rest
  | "scan" :: rest => commandOf g scanOptions [] scanCommand rest
  | "inspect" :: rest => commandOf g commonOptions [acceptsPath] inspectCommand rest
  | "help" :: rest => throw (helpOn rest)
  | word :: _ => throw (.usage (.unknownCommand word))

end PatternScan.CommandLine

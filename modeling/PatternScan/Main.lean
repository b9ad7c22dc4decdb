import PatternScan.CommandLine.Run

/-!
# The program

Reads the part of the file system a command line can touch, runs the command on it, prints what it
prints and writes what it writes.
-/

namespace PatternScan.Program

/-- The tree at an entry of a directory, without symbolic links. -/
partial def readTree (e : IO.FS.DirEntry) : IO (Option FileTree) := do
  match (← e.path.symlinkMetadata).type with
  | .dir =>
    let entries ← (← e.path.readDir).toList.filterMapM fun inner => do
      return (← readTree inner).map (inner.fileName, ·)
    return some (.dir entries)
  | .file => return some (.file (← IO.FS.readBinFile e.path))
  | _ => return none

/-- The file at the end of a path, or an empty directory in place of a directory. -/
def readShallow (e : IO.FS.DirEntry) : IO FileTree := do
  match (← e.path.metadata).type with
  | .dir => return .dir []
  | _ => return .file (← IO.FS.readBinFile e.path)

/-- The names that lead from the top to the end of a path. -/
def namesOf (cwd : List String) (path : String) : List String :=
  (Path.components path).foldl (fun names c => match c with
    | .root => []
    | .here => names
    | .up => names.dropLast
    | .name s => names ++ [s]) cwd

/-- Adds what stands at the end of a path to the files, if anything does. -/
def addPath (fs : FileSystem) (deep : Bool) (path : String) : IO FileSystem := do
  let names := namesOf fs.cwd path
  let e : IO.FS.DirEntry := ⟨← IO.currentDir, path⟩
  try
    let node ← if deep then pure ((← readTree e).getD (.dir [])) else readShallow e
    match deep, fs.top.find? names with
    | false, some _ => return fs
    | _, _ => return { fs with top := fs.top.insert node names }
  catch _ => return fs

/-- Adds what stands at the ends of paths, of directories only that they are there. -/
def addPaths (fs : FileSystem) (paths : List String) : IO FileSystem :=
  paths.foldlM (fun fs path => addPath fs false path) fs

/-- The files that say what is ignored below the directories on the way to a place. -/
def ignoreFilesAbove (names : List String) : List String :=
  (List.range names.length).flatMap fun n =>
    let dir := "/" ++ String.join ((names.take n).map (· ++ "/"))
    [".ignore", ".gitignore", ".git", ".git/info/exclude"].map (dir ++ ·)

/-- The files that a scan needs. -/
def addScan (fs : FileSystem) (s : Settings) : IO FileSystem := do
  let fs ← addPaths fs (s.patternsFile.toList ++ s.automatonPath.toList ++
    ignoreFilesAbove (namesOf fs.cwd s.rootPath))
  addPath fs true s.rootPath

/-- The directory a file at the end of a path would be in. -/
def directoryOf (path : String) : String :=
  "/".intercalate ((path.splitOn "/").dropLast ++ ["."])

/-- The text of the user's configuration file. -/
def userText : IO (Option String) := do
  let dir ← match ← IO.getEnv "XDG_CONFIG_HOME" with
    | some dir => if dir.startsWith "/" then pure (some dir) else home
    | none => home
  match dir with
  | some dir =>
    try return some (← IO.FS.readFile (Path.join dir "acscout/config.yaml"))
    catch _ => return none
  | none => return none
where
  /-- The directory of configuration files below the home directory. -/
  home : IO (Option String) := do
    return (← IO.getEnv "HOME").map (Path.join · ".config")

/-- The number of processors, one if it cannot be found out. -/
def countProcessors : IO Nat := do
  try
    let lines := (← IO.FS.readFile "/proc/cpuinfo").splitOn "\n"
    return max 1 (lines.filter fun line => line.startsWith "processor").length
  catch _ => return 1

/-- The files that an invocation can touch. -/
def filesFor (processors : Nat) (user : Option String) (v : CommandLine.Invocation) :
    IO FileSystem := do
  let cwd := namesOf [] (← IO.currentDir).toString
  let top := FileTree.insert (.dir []) (.dir []) cwd
  let fs : FileSystem := { top, cwd }
  match v.command with
  | .compile patterns _ output => addPaths fs [patterns, directoryOf output, output]
  | .inspect path => addPaths fs [path]
  | .scan o =>
    let named := o.config.toList.flatMap fun path => [path, path ++ ".yaml", path ++ ".yml"]
    let fs ← addPaths fs (Settings.localName :: named)
    match CommandLine.effectiveSettings fs processors user o with
    | .error _ => return fs
    | .ok s => addScan fs s

/-- Prints and writes what a command has to. -/
def finish (o : CommandLine.Outcome) : IO UInt32 := do
  for n in o.notices do
    IO.eprintln n.entry
  match o.written with
  | some (path, data) => IO.FS.writeBinFile path data
  | none => pure ()
  IO.print o.out
  IO.eprint o.err
  return o.code.toUInt32

/-- Runs a command line. -/
def run (words : List String) : IO UInt32 := do
  match CommandLine.Invocation.ofWords words with
  | .error s => finish (.ofStop s)
  | .ok v =>
    let processors ← countProcessors
    let user ← userText
    let fs ← filesFor processors user v
    finish (CommandLine.perform fs processors user v).1

end PatternScan.Program

/-- The entry point. -/
def main (words : List String) : IO UInt32 :=
  PatternScan.Program.run words

/-!
# Options

The words of a command are options and operands. An option has a long form and perhaps a short one;
short forms without a value can be put together in one word. A value is the next word or is
attached, behind an equals sign or, to a short form, directly. Behind a double hyphen all words are
operands.
-/

namespace PatternScan.CommandLine

/-- The ways in which a command line is wrong. -/
inductive UsageError
  | unknownOption (word : String)
  | needsValue (name : String)
  | takesNoValue (name : String)
  | badValue (name value : String)
  | repeated (name : String)
  | conflict (name other : String)
  | missing (name : String)
  | unexpected (word : String)
  | noCommand
  | unknownCommand (word : String)
deriving DecidableEq, Repr

namespace UsageError

/-- The text of an error. -/
def message : UsageError → String
  | unknownOption word => s!"unexpected argument '{word}' found"
  | needsValue name => s!"a value is required for '--{name}' but none was supplied"
  | takesNoValue name => s!"'--{name}' takes no value"
  | badValue name value => s!"invalid value '{value}' for '{name}'"
  | repeated name => s!"'--{name}' cannot be used multiple times"
  | conflict name other => s!"'--{name}' cannot be used with '--{other}'"
  | missing name => s!"'{name}' was not provided"
  | unexpected word => s!"unexpected argument '{word}' found"
  | noCommand => "a command is required"
  | unknownCommand word => s!"unrecognized command '{word}'"

end UsageError

/-- Why the words of a command line lead to no command: it is wrong, or asks for something else. -/
inductive Stop
  | usage (e : UsageError)
  | help
  | version
deriving DecidableEq, Repr

/-- What an option does. -/
inductive Effect
  /-- It is switched on, once. -/
  | switch
  /-- It is counted. -/
  | counter
  /-- It takes one acceptable value, once. -/
  | value (accepts : String → Bool)
  /-- It takes an acceptable value every time. -/
  | values (accepts : String → Bool)
  /-- It puts an end to everything. -/
  | stop (s : Stop)

/-- An option. -/
structure OptionSpec where
  long : String
  short : Option Char := none
  effect : Effect

namespace OptionSpec

/-- The option takes a value. -/
def takesValue (o : OptionSpec) : Bool :=
  match o.effect with
  | .value _ | .values _ => true
  | _ => false

end OptionSpec

/-- The options and operands read so far, the last ones first. -/
structure Given where
  options : List (String × String) := []
  operands : List String := []

namespace Given

/-- The values under a name. -/
def values (g : Given) (name : String) : List String :=
  (g.options.reverse.filter fun (n, _) => n = name).map Prod.snd

/-- The first value under a name. -/
def value? (g : Given) (name : String) : Option String :=
  (g.values name).head?

/-- An option has been given. -/
def has (g : Given) (name : String) : Bool :=
  (g.value? name).isSome

/-- Takes in an option with its value, the empty one if it takes none. -/
def addOption (g : Given) (o : OptionSpec) (value : String) : Except Stop Given :=
  let added : Given := { g with options := (o.long, value) :: g.options }
  match o.effect with
  | .switch => if g.has o.long then .error (.usage (.repeated o.long)) else .ok added
  | .counter => .ok added
  | .value accepts =>
    if g.has o.long then .error (.usage (.repeated o.long))
    else if accepts value then .ok added
    else .error (.usage (.badValue o.long value))
  | .values accepts =>
    if accepts value then .ok added else .error (.usage (.badValue o.long value))
  | .stop s => .error s

end Given

/-- A word that starts options: a hyphen with something behind it, but not a second hyphen alone. -/
def isOption (word : String) : Bool :=
  word.startsWith "-" && word ≠ "-" && word ≠ "--"

/-- An option that still needs its value, which may be attached. -/
abbrev Pending := Option (OptionSpec × Option String)

/-- Takes in short options put together in one word. -/
def addCluster (specs : List OptionSpec) : List Char → Given → Except Stop (Given × Pending)
  | [], g => .ok (g, none)
  | c :: cs, g =>
    match specs.find? fun o => o.short = some c with
    | none => .error (.usage (.unknownOption (String.ofList ['-', c])))
    | some o =>
      if o.takesValue then
        let attached := match cs with
          | [] => none
          | '=' :: value => some (String.ofList value)
          | value => some (String.ofList value)
        .ok (g, some (o, attached))
      else do addCluster specs cs (← g.addOption o "")

/-- Takes in a long option, given without its hyphens. -/
def addLong (specs : List OptionSpec) (text : List Char) (g : Given) :
    Except Stop (Given × Pending) :=
  let (name, rest) := text.span (· ≠ '=')
  let attached := match rest with
    | [] => none
    | _ :: value => some (String.ofList value)
  match specs.find? fun o => o.long.toList = name with
  | none => .error (.usage (.unknownOption ("--" ++ String.ofList name)))
  | some o =>
    if o.takesValue then .ok (g, some (o, attached))
    else match attached with
      | some _ => .error (.usage (.takesNoValue o.long))
      | none => (g.addOption o "").map (·, none)

/-- Takes in a word that starts options. -/
def addWord (specs : List OptionSpec) (word : String) (g : Given) : Except Stop (Given × Pending) :=
  match word.toList with
  | '-' :: '-' :: text => addLong specs text g
  | _ :: cs => addCluster specs cs g
  | [] => .ok (g, none)

/-- Takes in operands, of which there may be as many as `accepts` has conditions. -/
def addOperands (accepts : List (String → Bool)) : List String → Given → Except Stop Given
  | [], g => .ok g
  | word :: words, g =>
    match accepts[g.operands.length]? with
    | none => .error (.usage (.unexpected word))
    | some accept =>
      if accept word then addOperands accepts words { g with operands := word :: g.operands }
      else .error (.usage (.badValue "operand" word))

/-- Takes in the words of a command one after the other. -/
def addWords (specs : List OptionSpec) (accepts : List (String → Bool)) :
    List String → Given → Except Stop Given
  | [], g => .ok g
  | word :: rest, g =>
    if word = "--" then addOperands accepts rest g
    else if isOption word then do
      match ← addWord specs word g with
      | (g, none) => addWords specs accepts rest g
      | (g, some (o, some value)) => do addWords specs accepts rest (← g.addOption o value)
      | (g, some (o, none)) =>
        match rest with
        | [] => .error (.usage (.needsValue o.long))
        | value :: rest =>
          if isOption value || value = "--" then .error (.usage (.needsValue o.long))
          else do addWords specs accepts rest (← g.addOption o value)
    else do addWords specs accepts rest (← addOperands accepts [word] g)

end PatternScan.CommandLine

import StatusBoard.CommandLine.Arguments
import StatusBoard.Text.Decimal
set_option autoImplicit false

/-!
# Command line: what is asked for

A call names one command, with the options of all commands before or after it.  An option after the command
wins over the same one before it.
-/

namespace StatusBoard.CommandLine

/-- How answers are written. -/
inductive OutputFormat where
  | human
  | json
  deriving DecidableEq, Repr, Inhabited

/-- A command. -/
inductive Command where
  | init
  | create (kind name : String) (labels : List String) (spec : String)
  | get (kind id : String)
  | delete (kind id : String)
  | conditions (kind id : String) (set : List String) (generation : Int64)
  | report (kind id file : String)
  | status (kind id : String) (adapter : Option String) (page pageSize : Option UInt32)
  | search (kind filter : String) (page pageSize : Option UInt32)
  deriving DecidableEq, Repr, Inhabited

/-- A command, and the options of all commands. -/
structure Invocation where
  output : OutputFormat
  config : Option String
  command : Command
  deriving DecidableEq, Repr, Inhabited

/-! ## Options -/

def outputSpec : OptionSpec := { long := "output", short := some 'o' }
def configSpec : OptionSpec := { long := "config" }
def pageSpecs : List OptionSpec := [{ long := "page" }, { long := "page-size" }]

/-- The options of all commands. -/
def sharedSpecs : List OptionSpec := [outputSpec, configSpec]

/-- The options of a command; `none` if there is no such command. -/
def ownSpecs : String → Option (List OptionSpec)
  | "init" | "get" | "delete" => some []
  | "create" => some [{ long := "label", short := some 'l', repeats := true }, { long := "spec" }]
  | "conditions" => some [{ long := "set", repeats := true }, { long := "generation" }]
  | "report" => some [{ long := "file" }]
  | "status" => some ({ long := "adapter" } :: pageSpecs)
  | "search" => some pageSpecs
  | _ => none

/-- What asks for help, wherever it stands. -/
def helpDetours : List (String × Detour) := [("help", .help), ("h", .help)]

/-- What asks for something else before the command. -/
def leadingDetours : List (String × Detour) := helpDetours ++ [("version", .version), ("V", .version)]

/-- How many arguments of a command count by position, at most. -/
def roomOf (name : String) : Nat :=
  if name = "init" then 0 else 2

/-! ## Values -/

/-- A value, if its option was given and it can be read. -/
def optionalValue {α : Type} (options : List Given) (name : String) (read : String → Option α) :
    Except Detour (Option α) :=
  match (valuesOf options name).getLast? with
  | none => .ok none
  | some value =>
    match read value with
    | some x => .ok (some x)
    | none => .error .usage

/-- The output format of a word. -/
def readOutput (s : String) : Option OutputFormat :=
  if s = "human" then some .human else if s = "json" then some .json else none

/-- The path of a file, which is not empty. -/
def readPath (s : String) : Option String :=
  if s.isEmpty then none else some s

/-- A natural number of at most 32 bits. -/
def readCount (s : String) : Option UInt32 :=
  (Text.parseInt64? s.toList).bind fun i =>
    if 0 ≤ i.toInt && i.toInt < UInt32.size then some (UInt32.ofNat i.toInt.toNat) else none

/-- A signed 64-bit number. -/
def readGeneration (s : String) : Option Int64 :=
  Text.parseInt64? s.toList

/-- The value of an option can be read. -/
def isReadable (given : Given) : Bool :=
  match given.name with
  | "output" => (readOutput given.value).isSome
  | "config" => (readPath given.value).isSome
  | "page" | "page-size" => (readCount given.value).isSome
  | "generation" => (readGeneration given.value).isSome
  | _ => true

/-! ## Grammars -/

/-- What may stand before the command. -/
def leadingGrammar : Grammar where
  specs := sharedSpecs
  detours := leadingDetours
  accepts := isReadable

/-- What may follow a command that has options of its own. -/
def commandGrammar (name : String) (own : List OptionSpec) : Grammar where
  specs := own ++ sharedSpecs
  detours := helpDetours
  accepts := isReadable
  room := roomOf name

/-! ## Commands -/

/-- The command of a name, with its options and positions. -/
def readCommand (name : String) (g : Gathered) : Except Detour Command := do
  let page ← optionalValue g.options "page" readCount
  let pageSize ← optionalValue g.options "page-size" readCount
  let generation ← optionalValue g.options "generation" readGeneration
  let last (option : String) : Option String := (valuesOf g.options option).getLast?
  match name, g.positions with
  | "init", [] => return .init
  | "create", [kind, name] =>
    return .create kind name (valuesOf g.options "label") ((last "spec").getD "\x7b\x7d")
  | "get", [kind, id] => return .get kind id
  | "delete", [kind, id] => return .delete kind id
  | "conditions", [kind, id] =>
    if (valuesOf g.options "set").isEmpty then throw .usage
    return .conditions kind id (valuesOf g.options "set") (generation.getD 1)
  | "report", [kind, id] => return .report kind id ((last "file").getD "-")
  | "status", [kind, id] => return .status kind id (last "adapter") page pageSize
  | "search", [kind] => return .search kind "" page pageSize
  | "search", [kind, filter] => return .search kind filter page pageSize
  | _, _ => throw .usage

/-- What the word for help is followed by: nothing, or the command that help is wanted with. -/
def helpDetour : List String → Detour
  | [] => .help
  | [name] => if (ownSpecs name).isSome || name = "help" then .help else .usage
  | _ => .usage

/-- The file of settings: an option, or else the environment.  An empty name is no file, and it is no
excuse that it is not used. -/
def readConfig (leading following : List Given) (environment : Option String) :
    Except Detour (Option String) := do
  let before ← optionalValue leading configSpec.long readPath
  let after ← optionalValue following configSpec.long readPath
  if environment = some "" && (before.isNone || after.isNone) then throw .usage
  return (after.orElse fun _ => before).orElse fun _ => environment

/-- What a call asks for, given its arguments and the file of settings that the environment names.  What
follows the command is gone through before the option that was given last before it. -/
def Invocation.read (environment : Option String) (args : List String) : Except Detour Invocation := do
  let (leading, name, rest) ← leadingGrammar.gatherFirst {} args
  if name = "help" then throw (helpDetour rest)
  match ownSpecs name with
  | none => throw .usage
  | some own =>
    let following ← (commandGrammar name own).gather {} rest
    let leading ← leadingGrammar.settle leading
    let command ← readCommand name following
    let before ← optionalValue leading.options outputSpec.long readOutput
    let after ← optionalValue following.options outputSpec.long readOutput
    let config ← readConfig leading.options following.options environment
    return { output := (after.orElse fun _ => before).getD .human, config, command }

end StatusBoard.CommandLine

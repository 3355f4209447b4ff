import Std.Time.DateTime.Timestamp
import StatusBoard.CommandLine.Run
import StatusBoard.Store.Snapshot
set_option autoImplicit false

/-!
# Main: the command line

Reads the environment, the files and the clock, runs one command, and keeps the store in the file that the
settings name.
-/

namespace StatusBoard.Main

open CommandLine (Invocation CommandError Detour Outcome)

/-- Midnight of the first of January 1970. -/
def epoch : Option Instant :=
  (Date.of? 1970 1 1).bind fun date => Instant.of? date 0 0

/-- The time of day, to the microsecond. -/
def now : IO Instant := do
  let stamp ← Std.Time.Timestamp.now
  let nanos : Int := stamp.toNanosecondsSinceUnixEpoch.val
  return (((epoch.bind fun e => e.advance? nanos).map Instant.truncateMicros).getD default)

/-- A fresh identity. -/
def freshId : IO Uuid := do
  let bytes ← IO.getRandomBytes 16
  return (Uuid.ofRandom? bytes.toList).getD default

/-- What an action yields, if it does not fail. -/
def attempt {α : Type} (action : IO α) : IO (Option α) := do
  try
    return some (← action)
  catch _ =>
    return none

/-- The directory of a path, if it names one. -/
def directoryOf? (path : String) : Option String :=
  let directory := ((path.toList.reverse.dropWhile (· ≠ '/')).drop 1).reverse
  if directory.isEmpty then none else some (String.ofList directory)

/-- The settings of a call. -/
def loadSettings (config : Option String) : IO (Except SettingsError Settings) := do
  let file : SettingsFile ← match config with
    | none => pure .notGiven
    | some path =>
      match ← attempt (IO.FS.readFile path) with
      | some content => pure (.text content)
      | none => pure .unreadable
  let names := ["FLEET_DB_PATH", "FLEET_POOL_SIZE", "FLEET_REQUEST_TIMEOUT_MS", "FLEET_MANDATORY_CONDITIONS"]
  let values ← names.mapM fun name => do return (name, ← IO.getEnv name)
  let lookup (name : String) : Option String := (values.find? (·.1 = name)).bind (·.2)
  return Settings.load (← IO.getEnv "HOME") file lookup

/-- The store that is kept in a file, an empty one if there is no file yet; `none` if the file holds
something else. -/
def openStore (path : String) : IO (Option Store) := do
  match directoryOf? path with
  | some directory => IO.FS.createDirAll directory
  | none => pure ()
  match ← attempt (IO.FS.readFile path) with
  | some content => return Store.ofSnapshot? content
  | none => return some .empty

/-- The body of a report. -/
def readBody (file : String) : IO (Option String) :=
  if file = "-" then attempt (do (← IO.getStdin).readToEnd) else attempt (IO.FS.readFile file)

/-- Says on the standard error why a command failed. -/
def fail (e : CommandError) : IO UInt32 := do
  IO.eprintln ("Error: " ++ e.message)
  return 1

/-- Runs a command on a store, which is kept again afterwards. -/
def runOn (settings : Settings) (store : Store) (invocation : Invocation) : IO UInt32 := do
  let body ← match invocation.command.bodyFile? with
    | some file => readBody file
    | none => pure none
  let outcome := invocation.command.run settings invocation.output
    { now := ← now, freshId := ← freshId, cancel := settings.cancellation } store body
  IO.FS.writeFile settings.dbPath outcome.store.snapshot
  match outcome.result with
  | .ok printed =>
    IO.print printed
    return 0
  | .error e => fail e

/-- Runs what a call asks for. -/
def run (invocation : Invocation) : IO UInt32 := do
  match ← loadSettings invocation.config with
  | .error _ => fail .settings
  | .ok settings =>
    match ← openStore settings.dbPath with
    | some store => runOn settings store invocation
    | none => fail .store

/-- Runs what the arguments ask for. -/
def call (args : List String) : IO UInt32 := do
  match Invocation.read (← IO.getEnv "FLEET_CONFIG") args with
  | .ok invocation => run invocation
  | .error .version =>
    IO.print CommandLine.versionText
    return 0
  | .error .help =>
    IO.print CommandLine.helpText
    return 0
  | .error .usage =>
    IO.eprintln "usage: fleetctl [OPTIONS] <COMMAND>"
    return 2

end StatusBoard.Main

/-- The command line. -/
def main (args : List String) : IO UInt32 :=
  StatusBoard.Main.call args

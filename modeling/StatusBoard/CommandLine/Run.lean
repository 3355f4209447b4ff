import StatusBoard.CommandLine.Output
set_option autoImplicit false

/-!
# Command line: running

A command becomes a request to the board, unless its arguments make none; the answer is printed.  What a
command fails with is one line.
-/

namespace StatusBoard.CommandLine

/-- Why a command failed. -/
inductive CommandError where
  | settings
  /-- The file of the store holds something else. -/
  | store
  | label (raw : String)
  | condition (raw : String)
  | conditionStatus (error : ValidationError)
  | spec
  /-- The file of a report cannot be read; a hyphen stands for the standard input. -/
  | unreadableBody (file : String)
  | body
  | service (error : ServiceError)
  deriving DecidableEq, Repr

/-- The line that tells why. -/
def CommandError.message : CommandError → String
  | settings => "loading configuration"
  | store => "internal: sqlite: file is not a database"
  | label raw => "label " ++ Text.quoted raw ++ " must be key=value"
  | condition raw => "condition " ++ Text.quoted raw ++ " must be Type=Status[:Reason]"
  | conditionStatus error => error.message
  | spec => "--spec must be JSON"
  | unreadableBody file => "reading report from " ++ (if file = "-" then "stdin" else file)
  | body => "report body must be JSON"
  | service error => error.message

/-! ## From arguments to requests -/

/-- A label: a key and a value, without blanks around them. -/
def readLabel (raw : String) : Except CommandError (String × String) :=
  match Text.splitFirst? '=' raw.toList with
  | some (key, value) =>
    .ok (String.ofList (Text.trimChars key), String.ofList (Text.trimChars value))
  | none => .error (.label raw)

/-- A condition: a type, a status and perhaps a reason, without blanks around them. -/
def readCondition (raw : String) : Except CommandError ConditionInput :=
  match Text.splitFirst? '=' raw.toList with
  | none => .error (.condition raw)
  | some (type, rest) =>
    let (word, reason) := match Text.splitFirst? ':' rest with
      | some (word, reason) => (word, some (String.ofList (Text.trimChars reason)))
      | none => (rest, none)
    match ConditionStatus.parse (String.ofList (Text.trimChars word)) with
    | .ok status => .ok { type := String.ofList (Text.trimChars type), status, reason }
    | .error e => .error (.conditionStatus e)

/-- The request that a command makes, given the text of the body that it asks for; `none` if it makes
none. -/
def Command.request (body : Option String) : Command → Except CommandError (Option Request)
  | .init => .ok none
  | .create kind name labels spec => do
    let labels ← labels.mapM readLabel
    match Json.decode? Json.readValue spec with
    | some spec => return some (.create kind { name, labels := Dict.ofPairs labels, spec })
    | none => throw .spec
  | .get kind id => .ok (some (.get ⟨kind, id⟩))
  | .delete kind id => .ok (some (.delete ⟨kind, id⟩))
  | .conditions kind id set generation => do
    return some (.setConditions ⟨kind, id⟩ generation (← set.mapM readCondition))
  | .report kind id file =>
    match body with
    | none => .error (.unreadableBody file)
    | some body =>
      match Json.decode? Report.read body with
      | some r => .ok (some (.report ⟨kind, id⟩ r))
      | none => .error .body
  | .status kind id (some adapter) _ _ => .ok (some (.getStatus ⟨kind, id, adapter⟩))
  | .status kind id none page pageSize => .ok (some (.listStatuses ⟨kind, id⟩ page pageSize))
  | .search kind filter page pageSize => .ok (some (.search kind filter page pageSize))

/-- The file with the body that a command asks for. -/
def Command.bodyFile? : Command → Option String
  | .report _ _ file => some file
  | _ => none

/-! ## Running -/

/-- The store after a command, and what is printed. -/
structure Outcome where
  store : Store
  result : Except CommandError String

/-- What is printed when a command has been answered. -/
def Command.print (format : OutputFormat) (response : Response) : Command → String
  | .delete kind id => "deleted " ++ kind ++ " " ++ id ++ "\n"
  | _ => printResponse format response

/-- Runs a command. -/
def Command.run (settings : Settings) (format : OutputFormat) (c : Circumstances) (s : Store)
    (body : Option String) (command : Command) : Outcome :=
  match command.request body with
  | .error e => ⟨s, .error e⟩
  | .ok none => ⟨s, .ok ("database ready at " ++ settings.dbPath ++ "\n")⟩
  | .ok (some request) =>
    let reply := settings.board.handle c s request
    ⟨reply.store, (reply.result.mapError .service).map fun response => command.print format response⟩

/-- What is printed for those who ask for the version. -/
def versionText : String := "fleetctl 0.1.0\n"

/-- What is printed for those who ask for help. -/
def helpText : String :=
  "Fleet resource status CLI\n\nUsage: fleetctl [OPTIONS] <COMMAND>\n\nCommands:\n" ++
  "  init        Create the database (if needed) and print its location\n" ++
  "  create      Create a resource\n" ++
  "  get         Show one resource\n" ++
  "  delete      Soft-delete a resource and its adapter statuses\n" ++
  "  conditions  Replace a resource's aggregate conditions\n" ++
  "  report      Submit an adapter status report (JSON body from a file or \"-\" for stdin)\n" ++
  "  status      Show adapter statuses for a resource\n" ++
  "  search      Search resources with a filter\n" ++
  "  help        Print this message\n"

end StatusBoard.CommandLine

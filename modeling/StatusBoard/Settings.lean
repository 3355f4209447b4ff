import StatusBoard.Kind
import StatusBoard.Settings.Layout
import StatusBoard.Text.Blank
set_option autoImplicit false

/-!
# Settings: defaults, file, environment

Settings come in three layers: the defaults, then a file, then environment variables, each over the one
before it.  The file is a record with optional fields; the kinds it names replace the default ones.  One
variable sets the mandatory types of every kind.  The result is validated as a whole.
-/

namespace StatusBoard

/-- How a board runs. -/
structure Settings where
  dbPath : String
  poolSize : UInt64
  busyTimeoutMs : UInt64
  requestTimeoutMs : UInt64
  defaultPageSize : UInt32
  maxPageSize : UInt32
  kinds : KindRegistry
  deriving DecidableEq, Repr, Inhabited

/-- What is wrong with settings that could be read. -/
inductive SettingsFault where
  | noConnections
  | pageSizes (default max : UInt32)
  | noKinds
  | kinds (error : ValidationError)
  deriving DecidableEq, Repr, Inhabited

namespace SettingsFault

/-- The text that tells what is wrong. -/
def message : SettingsFault → String
  | noConnections => "pool_size must be at least 1"
  | pageSizes least most =>
    "default_page_size " ++ toDigits least ++ " must be between 1 and max_page_size " ++ toDigits most
  | noKinds => "at least one resource kind must be configured"
  | kinds error => error.message
where
  toDigits (n : UInt32) : String := String.ofList (Text.ofInt n.toNat)

end SettingsFault

/-- Why there are no settings. -/
inductive SettingsError where
  | unreadableFile
  /-- The text of the file is no record of settings. -/
  | notDecodable
  | invalidVariable (name value : String)
  | invalid (fault : SettingsFault)
  deriving DecidableEq, Repr, Inhabited

namespace SettingsError

/-- The text that tells what is wrong. -/
def message : SettingsError → String
  | unreadableFile => "reading config"
  | notDecodable => "parsing config"
  | invalidVariable name value => "invalid value " ++ Text.quoted value ++ " for " ++ name
  | invalid fault => "invalid config: " ++ fault.message

end SettingsError

/-! ## Files -/

/-- What a file says of settings: a value for each field that it names. -/
structure SettingsLayer where
  dbPath : Option String := none
  poolSize : Option UInt64 := none
  busyTimeoutMs : Option UInt64 := none
  requestTimeoutMs : Option UInt64 := none
  defaultPageSize : Option UInt32 := none
  maxPageSize : Option UInt32 := none
  kinds : Option KindRegistry := none
  deriving DecidableEq, Repr, Inhabited

namespace SettingsLayer

/-- The fields in the order of their declaration. -/
def fieldNames : List String :=
  ["db_path", "pool_size", "busy_timeout_ms", "request_timeout_ms", "default_page_size", "max_page_size",
   "kinds"]

def read (style : Json.Style) : Json.Reader SettingsLayer := fun depth tree => do
  let fields ← Json.readFields style fieldNames depth tree
  let dbPath ← fields.given "db_path" (Json.readScalarText style)
  let poolSize ← fields.given "pool_size" Json.readUInt64
  let busyTimeoutMs ← fields.given "busy_timeout_ms" Json.readUInt64
  let requestTimeoutMs ← fields.given "request_timeout_ms" Json.readUInt64
  let defaultPageSize ← fields.given "default_page_size" Json.readUInt32
  let maxPageSize ← fields.given "max_page_size" Json.readUInt32
  let kinds ← fields.given "kinds" (KindRegistry.read style)
  some { dbPath, poolSize, busyTimeoutMs, requestTimeoutMs, defaultPageSize, maxPageSize, kinds }

/-- What the text of a file says; a text with nothing in it says nothing. -/
def ofText? (content : String) : Option SettingsLayer :=
  if Layout.isEmpty content then some {}
  else (Layout.toJson? content).bind (Json.decode? (read .settings))

end SettingsLayer

/-- The file that settings may come from. -/
inductive SettingsFile where
  | notGiven
  | unreadable
  | text (content : String)
  deriving DecidableEq, Repr, Inhabited

/-- What a file says, given what texts say. -/
def SettingsFile.layer (ofText? : String → Option SettingsLayer) :
    SettingsFile → Except SettingsError SettingsLayer
  | notGiven => .ok {}
  | unreadable => .error .unreadableFile
  | text content =>
    match ofText? content with
    | some layer => .ok layer
    | none => .error .notDecodable

namespace Settings

/-! ## Defaults -/

/-- A path inside a directory. -/
def joinPath (directory path : String) : String :=
  if directory.isEmpty then path
  else if directory.toList.getLast? = some '/' then directory ++ path
  else directory ++ "/" ++ path

/-- The database in the home directory, or in the working directory if there is no home. -/
def defaultDbPath (home : Option String) : String :=
  match home with
  | some home => joinPath (joinPath home ".fleet") "fleet.db"
  | none => "fleet.db"

/-- The settings if nothing is said. -/
def default (home : Option String) : Settings where
  dbPath := defaultDbPath home
  poolSize := 4
  busyTimeoutMs := 5000
  requestTimeoutMs := 30000
  defaultPageSize := 20
  maxPageSize := 500
  kinds := .reference

/-! ## The file -/

/-- The settings with a layer laid over them: what it does not name stays. -/
def under (s : Settings) (layer : SettingsLayer) : Settings where
  dbPath := layer.dbPath.getD s.dbPath
  poolSize := layer.poolSize.getD s.poolSize
  busyTimeoutMs := layer.busyTimeoutMs.getD s.busyTimeoutMs
  requestTimeoutMs := layer.requestTimeoutMs.getD s.requestTimeoutMs
  defaultPageSize := layer.defaultPageSize.getD s.defaultPageSize
  maxPageSize := layer.maxPageSize.getD s.maxPageSize
  kinds := layer.kinds.getD s.kinds

/-- A record laid over settings. -/
def readOver (style : Json.Style) (s : Settings) : Json.Reader Settings := fun depth tree =>
  (SettingsLayer.read style depth tree).map s.under

/-- A file laid over settings. -/
def withFile (s : Settings) (file : SettingsFile)
    (ofText? : String → Option SettingsLayer := SettingsLayer.ofText?) : Except SettingsError Settings :=
  (file.layer ofText?).map s.under

/-- The text of a file laid over settings. -/
def withText (s : Settings) (content : String) : Except SettingsError Settings :=
  s.withFile (.text content)

def write (s : Settings) : Json.Value :=
  .object
    [("db_path", .text s.dbPath), ("pool_size", Json.writeNat s.poolSize.toNat),
     ("busy_timeout_ms", Json.writeNat s.busyTimeoutMs.toNat),
     ("request_timeout_ms", Json.writeNat s.requestTimeoutMs.toNat),
     ("default_page_size", Json.writeNat s.defaultPageSize.toNat),
     ("max_page_size", Json.writeNat s.maxPageSize.toNat), ("kinds", s.kinds.write)]

/-! ## The environment -/

/-- A variable that holds a path; one with nothing but blanks counts as not set. -/
def pathVariable (value : Option String) (current : String) : String :=
  match value with
  | none => current
  | some path => if Text.isAllBlank path then current else path

/-- A variable that holds a 64-bit number, blanks around it aside; `current` if it is not set. -/
def numberVariable (name : String) (value : Option String) (current : UInt64) :
    Except SettingsError UInt64 :=
  match value with
  | none => .ok current
  | some value =>
    match Text.parseNat? UInt64.size (Text.trimChars value.toList) with
    | some n => .ok (UInt64.ofNat n)
    | none => .error (.invalidVariable name value)

/-- The names between the commas of a list, without blanks around them and without empty ones. -/
def splitNames (value : String) : List String :=
  NameSet.ofList
    (((Text.splitAt ',' value.toList).map Text.trimChars).filter (!·.isEmpty) |>.map String.ofList)

/-- A variable that holds the mandatory types of every kind. -/
def typesVariable (name : String) (value : Option String) (current : KindRegistry) :
    Except SettingsError KindRegistry :=
  match value with
  | none => .ok current
  | some value =>
    match current.setMandatoryEverywhere (splitNames value) with
    | .ok kinds => .ok kinds
    | .error _ => .error (.invalidVariable name value)

/-- Environment variables laid over settings, in this order. -/
def withEnvironment (s : Settings) (lookup : String → Option String) : Except SettingsError Settings := do
  let dbPath := pathVariable (lookup "FLEET_DB_PATH") s.dbPath
  let poolSize ← numberVariable "FLEET_POOL_SIZE" (lookup "FLEET_POOL_SIZE") s.poolSize
  let requestTimeoutMs ←
    numberVariable "FLEET_REQUEST_TIMEOUT_MS" (lookup "FLEET_REQUEST_TIMEOUT_MS") s.requestTimeoutMs
  let kinds ← typesVariable "FLEET_MANDATORY_CONDITIONS" (lookup "FLEET_MANDATORY_CONDITIONS") s.kinds
  return { s with dbPath, poolSize, requestTimeoutMs, kinds }

/-! ## The whole -/

/-- The settings can be run with. -/
def validate (s : Settings) : Except SettingsError Unit :=
  if s.poolSize = 0 then .error (.invalid .noConnections)
  else if s.defaultPageSize = 0 || s.maxPageSize < s.defaultPageSize then
    .error (.invalid (.pageSizes s.defaultPageSize s.maxPageSize))
  else if s.kinds.kinds.isEmpty then .error (.invalid .noKinds)
  else match s.kinds.validate with
    | .ok () => .ok ()
    | .error e => .error (.invalid (.kinds e))

/-- The settings of a home directory, a file and an environment.  What a file may look like is a matter of
`ofText?` alone. -/
def load (home : Option String) (file : SettingsFile) (lookup : String → Option String)
    (ofText? : String → Option SettingsLayer := SettingsLayer.ofText?) : Except SettingsError Settings := do
  let s ← (default home).withFile file ofText?
  let s ← s.withEnvironment lookup
  s.validate
  return s

end Settings
end StatusBoard

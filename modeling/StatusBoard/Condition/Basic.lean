import StatusBoard.Json.Reader
import StatusBoard.Validation
set_option autoImplicit false

/-!
# Condition: what is said about a resource

A condition says of one aspect, its type, whether it holds.  An adapter sends a `ConditionInput`; what is
stored is a `Condition`, which also knows the generation it speaks of and when its status last changed.
-/

namespace StatusBoard

/-- Whether an aspect holds, as far as it is known. -/
inductive ConditionStatus where
  | holds
  | fails
  | unknown
  deriving DecidableEq, Repr, Inhabited

namespace ConditionStatus

/-- The word for a status. -/
def word : ConditionStatus → String
  | holds => "True"
  | fails => "False"
  | unknown => "Unknown"

/-- The status of a word; letter case counts. -/
def ofWord? (s : String) : Option ConditionStatus :=
  if s = "True" then some holds
  else if s = "False" then some fails
  else if s = "Unknown" then some unknown
  else none

@[simp] theorem ofWord?_word (s : ConditionStatus) : ofWord? s.word = some s := by
  cases s <;> decide

/-- The status of a word, or the fault of the word. -/
def parse (s : String) : Except ValidationError ConditionStatus :=
  match ofWord? s with
  | some status => .ok status
  | none => .error (.invalidConditionStatus s)

/-- The status is known. -/
def isDeterminate (s : ConditionStatus) : Bool :=
  s != unknown

/-- A status is its word, or an object with the word for its only key and null under it. -/
def read : Json.Reader ConditionStatus
  | _, .text (some s) => ofWord? s
  | _ + 1, .object [(some s, .null)] => ofWord? s
  | _, _ => none

end ConditionStatus

/-- A condition as it is sent: no times, no generation. -/
structure ConditionInput where
  type : String
  status : ConditionStatus
  reason : Option String := none
  message : Option String := none
  deriving DecidableEq, Repr, Inhabited

/-- A condition as it is stored. -/
structure Condition where
  type : String
  status : ConditionStatus
  reason : Option String
  message : Option String
  observedGeneration : Int64
  lastTransitionTime : Instant
  createdTime : Option Instant
  lastUpdatedTime : Option Instant
  deriving DecidableEq, Repr, Inhabited

namespace ConditionInput

/-- The fields in the order of their declaration. -/
def fieldNames : List String := ["type", "status", "reason", "message"]

def read : Json.Reader ConditionInput := fun depth tree => do
  let fields ← Json.readFields .wire fieldNames depth tree
  let type ← fields.required "type" Json.readText
  let status ← fields.required "status" ConditionStatus.read
  let reason ← fields.optional "reason" Json.readText
  let message ← fields.optional "message" Json.readText
  some { type, status, reason, message }

def write (c : ConditionInput) : Json.Value :=
  .object <|
    [("type", .text c.type), ("status", .text c.status.word)] ++
    Json.optionalMember "reason" .text c.reason ++ Json.optionalMember "message" .text c.message

/-- The condition as if first seen at a time. -/
def stamped (c : ConditionInput) (generation : Int64) (now : Instant) : Condition where
  type := c.type
  status := c.status
  reason := c.reason
  message := c.message
  observedGeneration := generation
  lastTransitionTime := now
  createdTime := some now
  lastUpdatedTime := some now

end ConditionInput

namespace Condition

/-- The fields in the order of their declaration. -/
def fieldNames : List String :=
  ["type", "status", "reason", "message", "observedGeneration", "lastTransitionTime", "createdTime",
   "lastUpdatedTime"]

def read : Json.Reader Condition := fun depth tree => do
  let fields ← Json.readFields .wire fieldNames depth tree
  let type ← fields.required "type" Json.readText
  let status ← fields.required "status" ConditionStatus.read
  let reason ← fields.optional "reason" Json.readText
  let message ← fields.optional "message" Json.readText
  let observedGeneration ← fields.orDefault "observedGeneration" 0 Json.readInt64
  let lastTransitionTime ← fields.required "lastTransitionTime" Json.readInstant
  let createdTime ← fields.optional "createdTime" Json.readInstant
  let lastUpdatedTime ← fields.optional "lastUpdatedTime" Json.readInstant
  some { type, status, reason, message, observedGeneration, lastTransitionTime, createdTime,
         lastUpdatedTime }

def write (c : Condition) : Json.Value :=
  .object <|
    [("type", .text c.type), ("status", .text c.status.word)] ++
    Json.optionalMember "reason" .text c.reason ++ Json.optionalMember "message" .text c.message ++
    [("observedGeneration", Json.writeInt64 c.observedGeneration),
     ("lastTransitionTime", Json.writeInstant c.lastTransitionTime)] ++
    Json.optionalMember "createdTime" Json.writeInstant c.createdTime ++
    Json.optionalMember "lastUpdatedTime" Json.writeInstant c.lastUpdatedTime

end Condition

/-! ## Checks of what is sent -/

/-- A condition type is in Pascal case. -/
def checkConditionType (type : String) : Except ValidationError Unit :=
  if isPascalCase type then .ok () else .error (.invalidConditionType type)

/-- All of a list pass a check; the first that does not gives the fault. -/
def checkAll {α ε : Type} (check : α → Except ε Unit) : List α → Except ε Unit
  | [] => .ok ()
  | x :: xs => do
    check x
    checkAll check xs

/-- The types are in Pascal case, and none occurs twice. -/
def checkInputs (inputs : List ConditionInput) : Except ValidationError Unit := do
  checkAll (fun c : ConditionInput => checkConditionType c.type) inputs
  match firstRepeat? (inputs.map (·.type)) [] with
  | some type => .error (.duplicateConditionType type)
  | none => .ok ()

/-- Conditions of a resource as a whole are checked like an adapter's, and none may be unknown. -/
def checkResourceConditions (inputs : List ConditionInput) : Except ValidationError Unit := do
  checkInputs inputs
  match inputs.find? (!·.status.isDeterminate) with
  | some c => .error (.indeterminateResourceCondition c.type)
  | none => .ok ()

end StatusBoard

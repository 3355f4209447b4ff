import StatusBoard.Condition.Document
import StatusBoard.Text.Blank
set_option autoImplicit false

/-!
# Report: what adapters send, and what is kept of it

An adapter sends a `Report` on a resource.  What is kept for a resource and an adapter is an
`AdapterStatus`, found under its `StatusKey`.
-/

namespace StatusBoard

/-- A resource, by kind and identity. -/
structure ResourceRef where
  kind : String
  id : String
  deriving DecidableEq, Repr, Inhabited

/-- What an adapter says about a resource is kept under the resource and the adapter. -/
structure StatusKey where
  resourceType : String
  resourceId : String
  adapter : String
  deriving DecidableEq, Repr, Inhabited

namespace StatusKey

/-- The key of an adapter's status of a resource. -/
def of (resource : ResourceRef) (adapter : String) : StatusKey :=
  ⟨resource.kind, resource.id, adapter⟩

/-- The resource that the status is about. -/
def owner (key : StatusKey) : ResourceRef :=
  ⟨key.resourceType, key.resourceId⟩

def write (key : StatusKey) : Json.Value :=
  .object [("resourceType", .text key.resourceType), ("resourceId", .text key.resourceId),
           ("adapter", .text key.adapter)]

end StatusKey

/-! ## Execution metadata -/

/-- Bookkeeping of the run that produced a report. -/
structure ExecutionMetadata where
  jobName : Option String := none
  jobNamespace : Option String := none
  attempt : Option UInt32 := none
  startedTime : Option Instant := none
  completedTime : Option Instant := none
  deriving DecidableEq, Repr, Inhabited

namespace ExecutionMetadata

def read : Json.Reader ExecutionMetadata := fun depth tree => do
  let fields ← Json.readFields .wire
    ["jobName", "jobNamespace", "attempt", "startedTime", "completedTime"] depth tree
  let jobName ← fields.optional "jobName" Json.readText
  let jobNamespace ← fields.optional "jobNamespace" Json.readText
  let attempt ← fields.optional "attempt" Json.readUInt32
  let startedTime ← fields.optional "startedTime" Json.readInstant
  let completedTime ← fields.optional "completedTime" Json.readInstant
  some { jobName, jobNamespace, attempt, startedTime, completedTime }

def write (m : ExecutionMetadata) : Json.Value :=
  .object <|
    Json.optionalMember "jobName" .text m.jobName ++
    Json.optionalMember "jobNamespace" .text m.jobNamespace ++
    Json.optionalMember "attempt" (fun n => Json.writeNat n.toNat) m.attempt ++
    Json.optionalMember "startedTime" Json.writeInstant m.startedTime ++
    Json.optionalMember "completedTime" Json.writeInstant m.completedTime

end ExecutionMetadata

/-! ## Reports -/

/-- What an adapter sends. -/
structure Report where
  adapter : String
  observedGeneration : Int64
  observedTime : Option Instant := none
  conditions : List ConditionInput := []
  data : Option Json.Value := none
  metadata : Option ExecutionMetadata := none
  deriving Repr, Inhabited

namespace Report

def read : Json.Reader Report := fun depth tree => do
  let fields ← Json.readFields .wire
    ["adapter", "observedGeneration", "observedTime", "conditions", "data", "metadata"] depth tree
  let adapter ← fields.required "adapter" Json.readText
  let observedGeneration ← fields.required "observedGeneration" Json.readInt64
  let observedTime ← fields.optional "observedTime" Json.readInstant
  let conditions ← fields.orDefault "conditions" [] (Json.readList ConditionInput.read)
  let data ← fields.optional "data" Json.readValue
  let metadata ← fields.optional "metadata" ExecutionMetadata.read
  some { adapter, observedGeneration, observedTime, conditions, data, metadata }

def write (r : Report) : Json.Value :=
  .object <|
    [("adapter", .text r.adapter), ("observedGeneration", Json.writeInt64 r.observedGeneration)] ++
    Json.optionalMember "observedTime" Json.writeInstant r.observedTime ++
    [("conditions", .array (r.conditions.map ConditionInput.write))] ++
    Json.optionalMember "data" (fun v => v) r.data ++
    Json.optionalMember "metadata" ExecutionMetadata.write r.metadata

/-- The faults that make a report one to be mended rather than one to be discarded. -/
def validate (r : Report) : Except ValidationError Unit :=
  if Text.isAllBlank r.adapter then .error (.emptyField "adapter")
  else if r.observedGeneration < 0 then .error (.negativeGeneration r.observedGeneration)
  else checkInputs r.conditions

/-- The conditions as a fresh document of a time. -/
def document (r : Report) (now : Instant) : Except ValidationError Document :=
  Document.ofInputs r.conditions r.observedGeneration now

end Report

/-! ## Adapter status -/

/-- What is kept of an adapter's reports on a resource. -/
structure AdapterStatus where
  id : Uuid
  key : StatusKey
  observedGeneration : Int64
  conditions : Document
  data : Option Json.Value
  metadata : Option ExecutionMetadata
  createdTime : Instant
  lastReportTime : Instant
  deriving Repr, Inhabited

namespace AdapterStatus

def read : Json.Reader AdapterStatus := fun depth tree => do
  let fields ← Json.readFields .wire
    ["id", "resourceType", "resourceId", "adapter", "observedGeneration", "conditions", "data",
     "metadata", "createdTime", "lastReportTime"] depth tree
  let id ← fields.required "id" Json.readUuid
  let resourceType ← fields.required "resourceType" Json.readText
  let resourceId ← fields.required "resourceId" Json.readText
  let adapter ← fields.required "adapter" Json.readText
  let observedGeneration ← fields.required "observedGeneration" Json.readInt64
  let conditions ← fields.required "conditions" Document.read
  let data ← fields.optional "data" Json.readValue
  let metadata ← fields.optional "metadata" ExecutionMetadata.read
  let createdTime ← fields.required "createdTime" Json.readInstant
  let lastReportTime ← fields.required "lastReportTime" Json.readInstant
  some { id, key := ⟨resourceType, resourceId, adapter⟩, observedGeneration, conditions, data, metadata,
         createdTime, lastReportTime }

def write (s : AdapterStatus) : Json.Value :=
  .object <|
    [("id", .text s.id.toText), ("resourceType", .text s.key.resourceType),
     ("resourceId", .text s.key.resourceId), ("adapter", .text s.key.adapter),
     ("observedGeneration", Json.writeInt64 s.observedGeneration), ("conditions", s.conditions.write)] ++
    Json.optionalMember "data" (fun v => v) s.data ++
    Json.optionalMember "metadata" ExecutionMetadata.write s.metadata ++
    [("createdTime", Json.writeInstant s.createdTime),
     ("lastReportTime", Json.writeInstant s.lastReportTime)]

end AdapterStatus
end StatusBoard

import StatusBoard.Condition.Document
set_option autoImplicit false

/-!
# Resource: what has a status

A resource has a kind, a name that is unique among the live resources of its kind, labels to find it by, an
opaque spec, and conditions of its own that sum up its adapters' reports.
-/

namespace StatusBoard

/-- A resource to be created. -/
structure NewResource where
  name : String
  labels : Dict String := []
  spec : Json.Value := .null
  deriving Repr, Inhabited

namespace NewResource

def read : Json.Reader NewResource := fun depth tree => do
  let fields ← Json.readFields .wire ["name", "labels", "spec"] depth tree
  let name ← fields.required "name" Json.readText
  let labels ← fields.orDefault "labels" [] (Json.readDict Json.readText)
  let spec ← fields.orDefault "spec" .null Json.readValue
  some { name, labels, spec }

def write (r : NewResource) : Json.Value :=
  .object [("name", .text r.name), ("labels", Json.writeTexts r.labels), ("spec", r.spec)]

/-- A label key is well formed. -/
def checkLabelKey (key : String) : Except ValidationError Unit :=
  if isLabelKey key then .ok () else .error (.invalidLabelKey key)

/-- The name and all label keys are well formed; of several bad keys the first in byte order counts. -/
def validate (r : NewResource) : Except ValidationError Unit :=
  if isResourceName r.name then checkAll checkLabelKey (Dict.keys r.labels)
  else .error (.invalidName r.name)

end NewResource

/-- A resource. -/
structure Resource where
  id : Uuid
  kind : String
  name : String
  labels : Dict String
  spec : Json.Value
  generation : Int64
  statusConditions : Document
  createdTime : Instant
  updatedTime : Instant
  deriving Repr, Inhabited

namespace Resource

def read : Json.Reader Resource := fun depth tree => do
  let fields ← Json.readFields .wire
    ["id", "kind", "name", "labels", "spec", "generation", "statusConditions", "createdTime",
     "updatedTime"] depth tree
  let id ← fields.required "id" Json.readUuid
  let kind ← fields.required "kind" Json.readText
  let name ← fields.required "name" Json.readText
  let labels ← fields.orDefault "labels" [] (Json.readDict Json.readText)
  let spec ← fields.orDefault "spec" .null Json.readValue
  let generation ← fields.required "generation" Json.readInt64
  let statusConditions ← fields.orDefault "statusConditions" Document.empty Document.read
  let createdTime ← fields.required "createdTime" Json.readInstant
  let updatedTime ← fields.required "updatedTime" Json.readInstant
  some { id, kind, name, labels, spec, generation, statusConditions, createdTime, updatedTime }

def write (r : Resource) : Json.Value :=
  .object
    [("id", .text r.id.toText), ("kind", .text r.kind), ("name", .text r.name),
     ("labels", Json.writeTexts r.labels), ("spec", r.spec),
     ("generation", Json.writeInt64 r.generation), ("statusConditions", r.statusConditions.write),
     ("createdTime", Json.writeInstant r.createdTime), ("updatedTime", Json.writeInstant r.updatedTime)]

end Resource
end StatusBoard

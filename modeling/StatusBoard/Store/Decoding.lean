import StatusBoard.Resource
import StatusBoard.Store.Fault
import StatusBoard.Store.Row
set_option autoImplicit false

/-!
# Store: what rows mean

A row is written from a domain value and read back into one.  Reading looks at one column after the other,
in a fixed order, and the first that makes no sense is what is reported.  A status row that is about to be
overwritten is read with more patience: its data and metadata are replaced anyway.
-/

namespace StatusBoard

/-- Reads the text of a timestamp column. -/
def decodeTime (what raw : String) : Except StoreError Instant :=
  match Instant.parseStrict? raw with
  | some t => .ok t
  | none => .error (.corrupt (.time what raw))

/-- Reads the text of a JSON column. -/
def decodeJson {α : Type} (reader : Json.Reader α) (what raw : String) : Except StoreError α :=
  match Json.decode? reader raw with
  | some x => .ok x
  | none => .error (.corrupt (.json what))

/-! ## Resources -/

/-- A column of a resource that holds a text. -/
def resourceText (cell : Cell) (column : String) : Except StoreError String :=
  match cell with
  | .text s => .ok s
  | other => .error (.corrupt (.notText column other.cellClass))

namespace Resource

/-- The resource of a row. -/
def ofRow (r : ResourceRow) : Except StoreError Resource := do
  let idText ← resourceText r.id "id"
  let generation ← match r.generation with
    | .int g => pure g
    | other => throw (.corrupt (.generation other.cellClass))
  let conditions ← resourceText r.statusConditions "status_conditions"
  let id ← match Uuid.parse? idText with
    | some id => pure id
    | none => throw (.corrupt (.resourceId idText))
  let kind ← resourceText r.kind "kind"
  let name ← resourceText r.name "name"
  let labels ← decodeJson (Json.readDict Json.readText) "resource labels" (← resourceText r.labels "labels")
  let spec ← decodeJson Json.readValue "resource spec" (← resourceText r.spec "spec")
  let statusConditions ← match Document.parse conditions with
    | .ok d => pure d
    | .error e => throw (.corrupt (.conditions idText e))
  let createdTime ← decodeTime "resource created_time" (← resourceText r.createdTime "created_time")
  let updatedTime ← decodeTime "resource updated_time" (← resourceText r.updatedTime "updated_time")
  return { id, kind, name, labels, spec, generation, statusConditions, createdTime, updatedTime }

end Resource

/-- The row of a resource that is created. -/
def NewResource.toRow (r : NewResource) (id : Uuid) (kind : String) (now : Instant) : ResourceRow where
  id := .text id.toText
  kind := .text kind
  name := .text r.name
  labels := .text (Json.writeTexts r.labels).render
  spec := .text r.spec.render
  generation := .int 1
  statusConditions := .text Document.empty.render
  createdTime := .text now.toStorageText
  updatedTime := .text now.toStorageText

/-! ## Adapter statuses -/

/-- What a status row says.  Its conditions stay the text that is stored, so that a report can be merged
over a text that cannot be read. -/
structure StatusRecord where
  id : Uuid
  key : StatusKey
  observedGeneration : Int64
  conditions : String
  data : Option Json.Value
  metadata : Option ExecutionMetadata
  createdTime : Instant
  lastReportTime : Instant
  deriving Repr, Inhabited

/-- The columns of a status row by their classes, before any text is looked into. -/
structure StatusColumns where
  id : String
  key : StatusKey
  observedGeneration : Int64
  conditions : String
  data : Option String
  metadata : Option String
  createdTime : String
  lastReportTime : String
  deriving DecidableEq, Repr, Inhabited

namespace StatusColumns

/-- A column that holds a text. -/
def textAt (cell : Cell) (index : Nat) (column : String) : Except StoreError String :=
  match cell with
  | .text s => .ok s
  | other => .error (.database (.wrongType other.cellClass index column))

/-- A column that holds a text or nothing. -/
def optionalAt (cell : Cell) (index : Nat) (column : String) : Except StoreError (Option String) :=
  match cell with
  | .null => .ok none
  | cell => do return some (← textAt cell index column)

/-- A column that holds a whole number. -/
def intAt (cell : Cell) (index : Nat) (column : String) : Except StoreError Int64 :=
  match cell with
  | .int i => .ok i
  | other => .error (.database (.wrongType other.cellClass index column))

/-- The columns of a row. -/
def ofRow (r : StatusRow) : Except StoreError StatusColumns := do
  let id ← textAt r.id 0 "id"
  let resourceType ← textAt r.resourceType 1 "resource_type"
  let resourceId ← textAt r.resourceId 2 "resource_id"
  let adapter ← textAt r.adapter 3 "adapter"
  let observedGeneration ← intAt r.observedGeneration 4 "observed_generation"
  let conditions ← textAt r.conditions 5 "conditions"
  let data ← optionalAt r.data 6 "data"
  let metadata ← optionalAt r.metadata 7 "metadata"
  let createdTime ← textAt r.createdTime 8 "created_time"
  let lastReportTime ← textAt r.lastReportTime 9 "last_report_time"
  return { id, key := ⟨resourceType, resourceId, adapter⟩, observedGeneration, conditions, data, metadata,
           createdTime, lastReportTime }

/-- What a column with JSON holds, if it holds anything. -/
def jsonOf {α : Type} (reader : Json.Reader α) (what : String) (column : Option String) :
    Except StoreError (Option α) :=
  match column with
  | none => .ok none
  | some raw => do return some (← decodeJson reader what raw)

/-- The record of the columns, given what its data and metadata are. -/
def record (c : StatusColumns) (data : Except StoreError (Option Json.Value))
    (metadata : Except StoreError (Option ExecutionMetadata)) : Except StoreError StatusRecord := do
  let id ← match Uuid.parse? c.id with
    | some id => pure id
    | none => throw (.corrupt .statusId)
  let data ← data
  let metadata ← metadata
  let createdTime ← decodeTime "adapter status created_time" c.createdTime
  let lastReportTime ← decodeTime "adapter status last_report_time" c.lastReportTime
  return { id, key := c.key, observedGeneration := c.observedGeneration, conditions := c.conditions, data,
           metadata, createdTime, lastReportTime }

/-- What the data column holds. -/
def dataOf (c : StatusColumns) : Except StoreError (Option Json.Value) :=
  jsonOf Json.readValue "adapter status data" c.data

/-- What the metadata column holds. -/
def metadataOf (c : StatusColumns) : Except StoreError (Option ExecutionMetadata) :=
  jsonOf ExecutionMetadata.read "adapter status metadata" c.metadata

end StatusColumns

namespace StatusRecord

/-- The record of a row. -/
def ofRow (r : StatusRow) : Except StoreError StatusRecord := do
  let c ← StatusColumns.ofRow r
  c.record c.dataOf c.metadataOf

/-- The record of a row that is about to be overwritten: data and metadata that cannot be read count as
absent. -/
def ofRowForUpdate (r : StatusRow) : Except StoreError StatusRecord := do
  let c ← StatusColumns.ofRow r
  c.record (.ok (tolerated c.dataOf)) (.ok (tolerated c.metadataOf))
where
  tolerated {α : Type} : Except StoreError (Option α) → Option α
    | .ok x => x
    | .error _ => none

/-- The status that a record holds, unless its conditions cannot be read. -/
def toStatus (r : StatusRecord) : Except DocumentError AdapterStatus := do
  let conditions ← Document.parse r.conditions
  return { id := r.id, key := r.key, observedGeneration := r.observedGeneration, conditions,
           data := r.data, metadata := r.metadata, createdTime := r.createdTime,
           lastReportTime := r.lastReportTime }

end StatusRecord

/-- What is written into a status row. -/
structure StatusWrite where
  observedGeneration : Int64
  conditions : String
  data : Option Json.Value
  metadata : Option ExecutionMetadata
  now : Instant
  deriving Repr, Inhabited

namespace StatusWrite

/-- The cell of the data. -/
def dataCell (w : StatusWrite) : Cell :=
  .ofText? (w.data.map (·.render))

/-- The cell of the metadata. -/
def metadataCell (w : StatusWrite) : Cell :=
  .ofText? (w.metadata.map fun m => m.write.render)

/-- The row that is added. -/
def toRow (w : StatusWrite) (id : Uuid) (key : StatusKey) : StatusRow where
  id := .text id.toText
  resourceType := .text key.resourceType
  resourceId := .text key.resourceId
  adapter := .text key.adapter
  observedGeneration := .int w.observedGeneration
  conditions := .text w.conditions
  data := w.dataCell
  metadata := w.metadataCell
  createdTime := .text w.now.toStorageText
  lastReportTime := .text w.now.toStorageText

/-- A row overwritten; its identity, key and time of creation stay. -/
def applyTo (w : StatusWrite) (r : StatusRow) : StatusRow :=
  { r with
    observedGeneration := .int w.observedGeneration
    conditions := .text w.conditions
    data := w.dataCell
    metadata := w.metadataCell
    lastReportTime := .text w.now.toStorageText }

end StatusWrite
end StatusBoard

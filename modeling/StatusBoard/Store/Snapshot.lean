import StatusBoard.Json.Reader
import StatusBoard.Store.Row
set_option autoImplicit false

/-!
# Store: snapshots

Between two runs the tables are kept in a file, as a JSON text: for each table its rows, and for each row its
cells in the order of the columns.
-/

namespace StatusBoard

namespace Cell

/-- A cell as it is kept.  A number with a fraction is kept as sign, mantissa and exponent, and bytes one by
one, so that nothing is lost. -/
def write : Cell → Json.Value
  | null => .null
  | int i => Json.writeInt64 i
  | real x => .object [("real", .array [.bool x.negative, Json.writeNat x.mantissa, .int x.exponent])]
  | infinite negative => .object [("infinite", .bool negative)]
  | text s => .text s
  | blob bytes => .object [("blob", .array (bytes.map fun b => Json.writeNat b.toNat))]

/-- A byte. -/
def readByte : Json.Reader UInt8 := fun depth tree => do
  let value ← Json.readInt depth tree
  if 0 ≤ value && value < 256 then some (UInt8.ofNat value.toNat) else none

/-- Reads a cell. -/
def read : Json.Reader Cell
  | _, .null => some null
  | depth, .number n => (Json.readInt64 depth (.number n)).map int
  | _, .text s => s.map text
  | _, .object [(some "real", .array [.bool negative, mantissa, exponent])] => do
    let mantissa ← Json.readInt 0 mantissa
    let exponent ← Json.readInt 0 exponent
    some (real { negative, mantissa := mantissa.toNat, exponent })
  | _, .object [(some "infinite", .bool negative)] => some (infinite negative)
  | depth, .object [(some "blob", .array items)] => (items.mapM (readByte depth)).map blob
  | _, _ => none

end Cell

namespace ResourceRow

/-- The cells in the order of the columns. -/
def cells (r : ResourceRow) : List Cell :=
  [r.id, r.kind, r.name, r.labels, r.spec, r.generation, r.statusConditions, r.createdTime, r.updatedTime,
   r.deletedTime]

/-- The row with these cells. -/
def ofCells? : List Cell → Option ResourceRow
  | [id, kind, name, labels, spec, generation, statusConditions, createdTime, updatedTime, deletedTime] =>
    some { id, kind, name, labels, spec, generation, statusConditions, createdTime, updatedTime, deletedTime }
  | _ => none

end ResourceRow

namespace StatusRow

/-- The cells in the order of the columns. -/
def cells (r : StatusRow) : List Cell :=
  [r.id, r.resourceType, r.resourceId, r.adapter, r.observedGeneration, r.conditions, r.data, r.metadata,
   r.createdTime, r.lastReportTime, r.deletedTime]

/-- The row with these cells. -/
def ofCells? : List Cell → Option StatusRow
  | [id, resourceType, resourceId, adapter, observedGeneration, conditions, data, metadata, createdTime,
     lastReportTime, deletedTime] =>
    some { id, resourceType, resourceId, adapter, observedGeneration, conditions, data, metadata,
           createdTime, lastReportTime, deletedTime }
  | _ => none

end StatusRow

namespace Store

/-- A row as it is kept. -/
def writeCells (cells : List Cell) : Json.Value :=
  .array (cells.map Cell.write)

/-- Reads a row. -/
def readCells {α : Type} (ofCells? : List Cell → Option α) : Json.Reader α := fun depth tree =>
  (Json.readList Cell.read depth tree).bind ofCells?

/-- The text of the tables. -/
def snapshot (s : Store) : String :=
  Json.Value.render (.object
    [("resources", .array (s.resources.map fun r => writeCells r.cells)),
     ("statuses", .array (s.statuses.map fun r => writeCells r.cells))])

/-- Reads the tables. -/
def read : Json.Reader Store := fun depth tree => do
  let fields ← Json.readFields .wire ["resources", "statuses"] depth tree
  let resources ← fields.required "resources" (Json.readList (readCells ResourceRow.ofCells?))
  let statuses ← fields.required "statuses" (Json.readList (readCells StatusRow.ofCells?))
  some { resources, statuses }

/-- The tables of a text. -/
def ofSnapshot? (s : String) : Option Store :=
  Json.decode? read s

end Store
end StatusBoard

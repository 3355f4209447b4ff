import StatusBoard.Validation
import StatusBoard.Text.Blank
set_option autoImplicit false

/-!
# Filter: fields

The vocabulary of filters: six columns, the labels under `labels.`, and the conditions under
`status.conditions.`.  The spec is opaque, so nothing under `spec` can be asked for.
-/

namespace StatusBoard.Filter

/-- What a column holds, and so what it can be compared with. -/
inductive ColumnType where
  | text
  | integer
  | timestamp
  deriving DecidableEq, Repr, Inhabited

/-- A column of a resource that filters may ask for. -/
inductive Column where
  | id
  | name
  | kind
  | generation
  | createdTime
  | updatedTime
  deriving DecidableEq, Repr, Inhabited

namespace Column

/-- The name of the column, in filters and in the table alike. -/
def text : Column → String
  | id => "id"
  | name => "name"
  | kind => "kind"
  | generation => "generation"
  | createdTime => "created_time"
  | updatedTime => "updated_time"

/-- What the column holds. -/
def type : Column → ColumnType
  | id | name | kind => .text
  | generation => .integer
  | createdTime | updatedTime => .timestamp

/-- The column of a name. -/
def ofText? (s : String) : Option Column :=
  [id, name, kind, generation, createdTime, updatedTime].find? (·.text = s)

end Column

/-- What a field of a filter asks for. -/
inductive Target where
  | column (column : Column)
  | label (key : String)
  | condition (type : String)
  deriving DecidableEq, Repr, Inhabited

/-- Why a field cannot be asked for. -/
inductive FieldFault where
  /-- It is the spec, or inside it. -/
  | opaqueData
  | unknown
  deriving DecidableEq, Repr, Inhabited

/-- What the fields of labels start with. -/
def labelStart : String := "labels."

/-- What the fields of conditions start with. -/
def conditionStart : String := "status.conditions."

namespace Target

/-- What a field asks for. -/
def ofField (field : String) : Except FieldFault Target :=
  if field = "spec" || (Text.after? "spec." field).isSome then .error .opaqueData
  else match Column.ofText? field with
    | some c => .ok (.column c)
    | none =>
      match Text.after? labelStart field with
      | some key => if isLabelKey key then .ok (.label key) else .error .unknown
      | none =>
        match Text.after? conditionStart field with
        | some type => .ok (.condition type)
        | none => .error .unknown

/-- The field asks for a condition. -/
def isCondition (field : String) : Bool :=
  match ofField field with
  | .ok (.condition _) => true
  | _ => false

end Target
end StatusBoard.Filter

import StatusBoard.Condition.Document
import StatusBoard.Query.Size
import StatusBoard.Report
import StatusBoard.Store.Cell
set_option autoImplicit false

/-!
# Store: what can go wrong

An operation of the store fails because something is not there or is there already, because it was
cancelled, because a row that it read makes no sense, or because the database refused a statement.
-/

namespace StatusBoard

/-- What an operation did not find. -/
inductive Subject where
  | resource (resource : ResourceRef)
  | status (key : StatusKey)
  | statusRow (id : Uuid)
  deriving DecidableEq, Repr

/-- What the subject is called. -/
def Subject.text : Subject → String
  | resource r => r.kind ++ " " ++ r.id
  | status key => "adapter status " ++ key.resourceType ++ "/" ++ key.resourceId ++ "/" ++ key.adapter
  | statusRow id => "adapter status " ++ id.toText

/-- Why a row makes no sense. -/
inductive Corruption where
  /-- A column of a resource does not hold a text. -/
  | notText (column : String) (found : CellClass)
  | generation (found : CellClass)
  | resourceId (id : String)
  | statusId
  /-- The text of a column is not the JSON that belongs there. -/
  | json (what : String)
  | conditions (resourceId : String) (error : DocumentError)
  | time (what raw : String)
  deriving DecidableEq, Repr

/-- The text that tells why. -/
def Corruption.message : Corruption → String
  | notText column found => "resource " ++ column ++ ": expected text, got " ++ found.name
  | generation found => "resource generation: " ++ found.name
  | resourceId id => "resource id " ++ Text.quoted id ++ ": not a row identity"
  | statusId => "adapter status id: not a row identity"
  | json what => what ++ ": not the JSON that belongs here"
  | conditions id error => "resource " ++ id ++ " status_conditions: " ++ error.message
  | time what raw => what ++ ": bad timestamp " ++ Text.quoted raw

/-- Why the database refused a statement. -/
inductive DatabaseFault where
  | malformedJson
  | tooLarge (sql : String) (excess : QueryExcess)
  | constraint (reason : String)
  | wrongType (found : CellClass) (index : Nat) (column : String)
  deriving DecidableEq, Repr

/-- The text that tells why. -/
def DatabaseFault.message : DatabaseFault → String
  | malformedJson => "malformed JSON"
  | tooLarge sql excess => excess.message sql
  | constraint reason => reason
  | wrongType found index column =>
    "Invalid column type " ++ found.name ++ " at index: " ++ String.ofList (Text.ofInt index) ++
    ", name: " ++ column

/-- Why an operation failed. -/
inductive StoreError where
  | notFound (subject : Subject)
  /-- A live resource of the kind has the name. -/
  | nameTaken (kind name : String)
  | cancelled
  | corrupt (corruption : Corruption)
  | database (fault : DatabaseFault)
  deriving DecidableEq, Repr

namespace StoreError

/-- The text that tells why, without saying what kind of error it is. -/
def detail : StoreError → String
  | notFound subject => subject.text
  | nameTaken kind name => kind ++ " named " ++ Text.quoted name ++ " already exists"
  | cancelled => "operation cancelled"
  | corrupt corruption => corruption.message
  | database fault => fault.message

/-- The whole text. -/
def message (e : StoreError) : String :=
  match e with
  | notFound _ => "not found: " ++ e.detail
  | nameTaken .. => "conflict: " ++ e.detail
  | cancelled => e.detail
  | corrupt _ => "corrupt row: " ++ e.detail
  | database _ => "sqlite: " ++ e.detail

end StoreError
end StatusBoard

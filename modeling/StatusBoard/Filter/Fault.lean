import StatusBoard.Filter.Field
import StatusBoard.Filter.Parser
set_option autoImplicit false

/-!
# Filter: what can be wrong with one

`FilterFault` lists every reason for which a filter is refused, with the fields that its sender has to look
at.
-/

namespace StatusBoard.Filter

/-- What a field wants to be compared with. -/
inductive Wanted where
  | labelText
  | text
  | integer
  | timestamp
  deriving DecidableEq, Repr, Inhabited

/-- The text that tells what is wanted. -/
def Wanted.message : Wanted → String
  | labelText => "label values are strings"
  | text => "expected a quoted string"
  | integer => "expected an integer"
  | timestamp => "expected an RFC 3339 timestamp"

/-- Why a filter is refused. -/
inductive FilterFault where
  | parse (fault : Located ParseFault)
  /-- Fields that cannot be asked for: all of them, from left to right. -/
  | rejectedFields (fields : List String)
  | invalidConditionType (type : String)
  | invalidConditionStatus (field : String) (value : Literal)
  | unsupportedRelation (field : String) (relation : Relation)
  | invalidLiteral (field : String) (value : Literal) (wanted : Wanted)
  /-- A condition is asked for under OR or NOT. -/
  | conditionInDisjunction (field : String)
  deriving DecidableEq, Repr, Inhabited

namespace FilterFault

/-- The text that tells the sender. -/
def message : FilterFault → String
  | parse fault =>
    "parse error at offset " ++ String.ofList (Text.ofInt fault.offset) ++ ": " ++ fault.item.message
  | rejectedFields fields => "invalid search field(s): " ++ String.intercalate ", " fields
  | invalidConditionType type => (ValidationError.invalidConditionType type).message
  | invalidConditionStatus field value =>
    "invalid value " ++ value.toText ++ " for " ++ field ++
    ": condition status must be one of True, False, Unknown"
  | unsupportedRelation field relation =>
    "operator " ++ relation.text ++ " is not supported for " ++ field
  | invalidLiteral field value wanted =>
    "invalid value " ++ value.toText ++ " for " ++ field ++ ": " ++ wanted.message
  | conditionInDisjunction field =>
    "condition term " ++ field ++ " may only appear in AND-combined filters"

/-- The fields that the sender has to look at. -/
def fields : FilterFault → List String
  | parse _ => []
  | rejectedFields fields => fields
  | invalidConditionType type => [conditionStart ++ type]
  | invalidConditionStatus field _ => [field]
  | unsupportedRelation field _ => [field]
  | invalidLiteral field _ _ => [field]
  | conditionInDisjunction field => [field]

end FilterFault
end StatusBoard.Filter

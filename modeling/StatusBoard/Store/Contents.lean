import StatusBoard.Filter.Field
import StatusBoard.Json5.Binary
import StatusBoard.Json5.Lookup
import StatusBoard.Store.Fault
import StatusBoard.Store.Row
set_option autoImplicit false

/-!
# Store: what is inside of JSON columns

Labels and conditions of a resource are JSON inside of a cell, as a text or as bytes.  A query looks into
them with the patience of `Json5`; a cell that is no JSON at all, or has damage where the query looks, stops
the whole query.
-/

namespace StatusBoard

namespace Json5.Sight

/-- Whether a relation holds of what a query sees and a text; not known of nothing.  Numbers come before
texts. -/
def relate (relation : Filter.Relation) (sight : Sight) (value : String) : Option Bool :=
  match sight with
  | nothing => none
  | number => some (relation.holds .lt)
  | text codes => some (relation.holds (compare codes (value.toList.map Char.toNat)))

end Json5.Sight

namespace Cell

/-- What was seen, or the complaint that it makes no sense. -/
def seen {α : Type} : Option α → Except DatabaseFault α
  | some x => .ok x
  | none => .error .malformedJson

/-- The JSON that a cell holds; a null cell holds none.  In a number there is nothing to be found. -/
def toNode (c : Cell) : Except DatabaseFault (Option Json5.Node) :=
  match c with
  | null => .ok none
  | int _ | real _ | infinite _ => .ok (some .null)
  | text s => do return some (← seen (Json5.Node.parse? s.toList))
  | blob bytes => do return some (← seen (Json5.Node.ofBytes? bytes))

/-- What a query sees under a key of the JSON in a cell. -/
def member (c : Cell) (key : String) : Except DatabaseFault Json5.Sight := do
  match ← c.toNode with
  | none => return .nothing
  | some node => seen (node.member? key)

end Cell

/-- One of some elements has the type and the status.  Of an element with another type the status is not
looked at, and nothing of the elements behind the first that has both. -/
def someElementIs (type status : String) : List Json5.Node → Except DatabaseFault Bool
  | [] => .ok false
  | node :: nodes => do
    if (← Cell.seen (node.elementMember? "type")).relate .eq type = some true then
      if (← Cell.seen (node.elementMember? "status")).relate .eq status = some true then return true
      else someElementIs type status nodes
    else someElementIs type status nodes

namespace ResourceRow

/-- The cell of a column. -/
def cell (r : ResourceRow) : Filter.Column → Cell
  | .id => r.id
  | .name => r.name
  | .kind => r.kind
  | .generation => r.generation
  | .createdTime => r.createdTime
  | .updatedTime => r.updatedTime

/-- The row has a condition of a type with a status. -/
def hasCondition (r : ResourceRow) (type status : String) : Except DatabaseFault Bool := do
  match ← r.statusConditions.toNode with
  | none => return false
  | some node => someElementIs type status node.elements

end ResourceRow
end StatusBoard

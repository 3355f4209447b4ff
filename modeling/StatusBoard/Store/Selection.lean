import StatusBoard.Store.Page
import StatusBoard.Store.QueryPlan
set_option autoImplicit false

/-!
# Store: the rows that a query selects

A listing first counts the rows of which all predicates hold, and then takes a page of them in order.  Both
are statements, which the database takes in when their turn comes and has a plan for.  If the plan of the
page has rows come in order, they are read as they come, and nothing is looked at behind the last row of the
page; else all rows are looked at before the first is read.
-/

namespace StatusBoard

namespace ResourceRow

/-- A row comes before another in a listing: by time of creation, then by identity. -/
def isListedBefore (a b : ResourceRow) : Bool :=
  match Cell.order a.createdTime b.createdTime with
  | .lt => true
  | .eq => Cell.precedes a.id b.id
  | .gt => false

end ResourceRow

/-- A statement is taken in, unless its query is too large. -/
def Query.prepare (statement : Statement) : Option Query → Except DatabaseFault Unit
  | none => .ok ()
  | some q =>
    match q.measureIn statement with
    | .ok _ => .ok ()
    | .error excess => .error (.tooLarge (q.sql statement) excess)

namespace Selection

/-- The rows that a plan selects. -/
def ofRows (plan : QueryPlan) (parts : List Predicate) :
    List ResourceRow → Except DatabaseFault (List ResourceRow)
  | [] => .ok []
  | r :: rs => do
    let selected ← plan.selects r parts
    let rest ← ofRows plan parts rs
    return if selected then r :: rest else rest

/-- Reads the selected rows, one after the other, after some that are skipped, and up to a number of them. -/
def stream {α : Type} (read : ResourceRow → Except StoreError α) (plan : QueryPlan) (parts : List Predicate) :
    Nat → Nat → List ResourceRow → Except StoreError (List α)
  | _, 0, _ => .ok []
  | _, _, [] => .ok []
  | skipped, limit + 1, r :: rs => do
    if ← (plan.selects r parts).mapError .database then
      match skipped with
      | 0 => return (← read r) :: (← stream read plan parts 0 limit rs)
      | skipped + 1 => stream read plan parts skipped (limit + 1) rs
    else stream read plan parts skipped (limit + 1) rs

/-- The number of rows of which all predicates hold. -/
def count (parts : List Predicate) (rows : List ResourceRow) : Except StoreError Nat := do
  return (← (ofRows (QueryPlan.forCount parts) parts rows).mapError .database).length

/-- What is on the page of the rows of which all predicates hold. -/
def items {α : Type} (read : ResourceRow → Except StoreError α) (request : PageRequest)
    (parts : List Predicate) (rows : List ResourceRow) : Except StoreError (List α) :=
  match QueryPlan.forListing parts with
  | (plan, true) =>
    stream read plan parts request.skipped request.limit (rows.mergeSort ResourceRow.isListedBefore)
  | (plan, false) => do
    let selected ← (ofRows plan parts rows).mapError .database
    (request.slice (selected.mergeSort ResourceRow.isListedBefore)).mapM read

end Selection
end StatusBoard

import StatusBoard.Query.Clause
import StatusBoard.Text.Decimal
set_option autoImplicit false

/-!
# Query: how large a query may be

The database reads the text of a statement symbol by symbol, and what it has not put together yet waits on a
stack of limited size; what it has put together is a tree of limited height, with room for a limited number
of values.  `Query.measureIn` reads a statement like that, from left to right, and gives the first reason to
refuse it, or the height of its query.  What takes a thousand million bytes is not told apart from what does
not, here or in the store.
-/

namespace StatusBoard

/-- The statements of a search: one counts what is found, the other lists a page of it. -/
inductive Statement where
  | count
  | listing
  deriving DecidableEq, Repr, Inhabited

namespace Statement

/-- The text before the query. -/
def opening : Statement → String
  | count => "SELECT COUNT(*) FROM resources"
  | listing => "SELECT id, kind, name, labels, spec, generation, status_conditions, created_time, " ++
    "updated_time FROM resources"

/-- The text behind the query. -/
def closing : Statement → String
  | count => ""
  | listing => " ORDER BY created_time, id LIMIT ? OFFSET ?"

/-- The number of values that it takes behind the query. -/
def holes : Statement → Nat
  | count => 0
  | listing => 2

end Statement

/-- The text of a statement with a query, for which the kind is the first value. -/
def Query.sql (q : Query) (statement : Statement) : String :=
  statement.opening ++ " WHERE kind = ? AND deleted_time IS NULL AND (" ++ q.text ++ ")" ++ statement.closing

/-- A limit that a query exceeds. -/
inductive QueryExcess where
  | stack
  | height
  | values
  deriving DecidableEq, Repr, Inhabited

namespace QueryExcess

/-- The number of symbols of a query that may wait. -/
def stackLimit : Nat := 91

/-- The height that the tree of a query may have. -/
def heightLimit : Nat := 1000

/-- The number of values that a statement may take. -/
def variableLimit : Nat := 32766

/-- Where in the text of a statement the first question mark is that is one too many.  All characters of
statements are of one byte. -/
def offset (sql : String) : Nat :=
  match (sql.toList.zipIdx.filter fun place => place.1 = '?')[variableLimit]? with
  | some place => place.2
  | none => 0

/-- The text that tells what a statement exceeds. -/
def message (sql : String) : QueryExcess → String
  | stack => "parser stack overflow"
  | height => "Expression tree is too large (maximum depth 1000)"
  | values =>
    "too many SQL variables in " ++ sql ++ " at offset " ++ String.ofList (Text.ofInt (offset sql))

/-- Some more symbols wait for a leaf of a height. -/
def leaf (waiting more height : Nat) : Except QueryExcess Nat :=
  if waiting + more ≤ stackLimit then .ok height else .error stack

/-- The height of a node above others. -/
def above (height : Nat) : Except QueryExcess Nat :=
  if height + 1 ≤ heightLimit then .ok (height + 1) else .error QueryExcess.height

/-- So many values have been taken in. -/
def counted (count : Nat) : Except QueryExcess Unit :=
  if count ≤ variableLimit then .ok () else .error QueryExcess.values

end QueryExcess

namespace Clause

/-- The clause asks for a condition. -/
def isCondition : Clause → Bool
  | condition => true
  | _ => false

open QueryExcess (leaf above counted)

/-! A value is counted with the symbol behind it.  The last value of a clause that stands in a group is
therefore counted when the clause is in the tree of the group already, and a tree that is too high by then
is what the database complains of. -/

mutual

/-- The height of a clause, while a number of symbols waits, and behind a number of values. -/
def measure (waiting before : Nat) : Clause → Except QueryExcess Nat
  | column _ _ => leaf waiting 3 2
  | label _ => do
    let height ← leaf waiting 8 5
    counted (before + 1)
    return height
  | condition => do
    counted (before + 2)
    return 6
  | joined _ parts => measureFirst waiting before parts
  | negated part => do
    let height ← part.measure (waiting + 2) before
    counted (before + part.holes)
    above height

/-- The height of the parts of a group: a parenthesis waits for the first of them. -/
def measureFirst (waiting before : Nat) : List Clause → Except QueryExcess Nat
  | [] => .ok 0
  | part :: parts => do
    let height ← part.measure (waiting + 1) before
    counted (before + part.holes)
    measureRest waiting (before + part.holes) height parts

/-- The height of parts of a group with others before them, for which their tree and a connective wait too. -/
def measureRest (waiting before height : Nat) : List Clause → Except QueryExcess Nat
  | [] => .ok height
  | part :: parts => do
    let height ← above (max height (← part.measure (waiting + 3) before))
    counted (before + part.holes)
    measureRest waiting (before + part.holes) height parts

end

end Clause

namespace Query

open QueryExcess (above counted)

/-- The height of the tree that tells kind and life of a row. -/
def frameHeight : Nat := 3

/-- The height of the tree inside of a question on a condition, which counts from the root of the whole. -/
def conditionHeight : Nat := 5

/-- The number of values of a query, with the kind of the row before them. -/
def values (q : Query) : Nat :=
  1 + Clause.holesOfList q.parts

/-- The height of a query with what tells kind and life of a row. -/
def height (q : Query) : Except QueryExcess Nat := do
  let height ← match q.parts with
    | [part] => part.measure 0 1
    | parts => Clause.measureFirst 0 1 parts
  counted q.values
  above (max frameHeight height)

/-- The height of a query in a statement that is not too large.  Questions on conditions are measured last,
when the whole statement has been read. -/
def measureIn (q : Query) (statement : Statement) : Except QueryExcess Nat := do
  let height ← q.height
  counted (q.values + statement.holes)
  if q.parts.any Clause.isCondition && QueryExcess.heightLimit < height + conditionHeight then
    throw .height
  return height

/-- The height of a query that both statements of a search have room for: the listing takes more values. -/
def measure (q : Query) : Except QueryExcess Nat :=
  q.measureIn .listing

end Query
end StatusBoard

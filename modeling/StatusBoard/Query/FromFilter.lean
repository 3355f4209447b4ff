import StatusBoard.Condition.Basic
import StatusBoard.Filter.Fault
import StatusBoard.Instant.Reading
import StatusBoard.Instant.Writing
import StatusBoard.Query.Clause
set_option autoImplicit false

/-!
# Query: from a filter

A filter becomes a query in steps.  A filter with an empty group, or with a field that cannot be asked for,
is refused as a whole.  Then the comparisons with conditions are taken off the spine, that is, the part of
the tree that is reached through conjunctions only; anywhere else they are refused.  What is left becomes
one clause, followed by one for each condition.
-/

namespace StatusBoard

open StatusBoard.Filter (Expr Comparison Literal Relation Column Target FilterFault Wanted)

/-- A condition of a type has a status. -/
structure ConditionTest where
  type : String
  status : ConditionStatus
  deriving DecidableEq, Repr, Inhabited

namespace ConditionTest

/-- The test that a comparison with a condition asks for.  The relation is looked at first, then the type,
then the literal. -/
def of (type : String) (relation : Relation) (value : Literal) : Except FilterFault ConditionTest :=
  let field := Filter.conditionStart ++ type
  if relation ≠ .eq then .error (.unsupportedRelation field relation)
  else if isPascalCase type then
    match value with
    | .text word =>
      match ConditionStatus.ofWord? word with
      | some status => .ok ⟨type, status⟩
      | none => .error (.invalidConditionStatus field value)
    | value => .error (.invalidConditionStatus field value)
  else .error (.invalidConditionType type)

/-- The values of the question marks. -/
def params (t : ConditionTest) : List Param :=
  [.text t.type, .text t.status.word]

end ConditionTest

/-! ## The spine -/

/-- A filter split into the conditions on its spine and the rest, if anything is left. -/
structure Split where
  rest : Option Expr
  tests : List ConditionTest
  deriving Repr, Inhabited

namespace Split

/-- What is left of a conjunction of which some parts are left. -/
def restOf : List Expr → Option Expr
  | [] => none
  | [part] => some part
  | parts => some (.all parts)

/-- A comparison on the spine. -/
def ofComparison (c : Comparison) : Except FilterFault Split :=
  match Target.ofField c.field with
  | .ok (.condition type) => do return ⟨none, [← ConditionTest.of type c.relation c.value]⟩
  | _ => .ok ⟨some (.compare c), []⟩

/-- A filter under which nothing is on the spine. -/
def ofOffSpine (e : Expr) : Except FilterFault Split :=
  match e.leaves.find? fun c => Target.isCondition c.field with
  | some c => .error (.conditionInDisjunction c.field)
  | none => .ok ⟨some e, []⟩

mutual

/-- Splits a filter. -/
def ofExpr : Expr → Except FilterFault Split
  | .compare c => ofComparison c
  | .all parts => do
    let (kept, tests) ← ofParts parts
    return ⟨restOf kept, tests⟩
  | .any parts => ofOffSpine (.any parts)
  | .not part => ofOffSpine (.not part)

/-- Splits the parts of a conjunction: what is left of them, and their conditions, from left to right. -/
def ofParts : List Expr → Except FilterFault (List Expr × List ConditionTest)
  | [] => .ok ([], [])
  | part :: parts => do
    let split ← ofExpr part
    let (kept, tests) ← ofParts parts
    return (split.rest.toList ++ kept, split.tests ++ tests)

end

end Split

/-! ## Clauses -/

/-- A clause and its values. -/
abbrev Bound (α : Type) := α × List Param

/-- The value of a column in a comparison. -/
def columnParam (column : Column) (c : Comparison) : Except FilterFault Param :=
  match column.type, c.value with
  | .text, .text value => .ok (.text value)
  | .text, value => .error (.invalidLiteral c.field value .text)
  | .integer, .int value => .ok (.int value)
  | .integer, value => .error (.invalidLiteral c.field value .integer)
  | .timestamp, .text value =>
    match Instant.parseStrict? value with
    | some t => .ok (.text t.toStorageText)
    | none => .error (.invalidLiteral c.field (.text value) .timestamp)
  | .timestamp, value => .error (.invalidLiteral c.field value .timestamp)

/-- The clause of a comparison.  Identities have no order. -/
def Clause.ofComparison (c : Comparison) : Except FilterFault (Bound Clause) :=
  match Target.ofField c.field with
  | .ok (.column col) => do
    let param ← columnParam col c
    if c.relation.isOrdering && col = .id then .error (.unsupportedRelation c.field c.relation)
    else return (.column col c.relation, [param])
  | .ok (.label key) =>
    match c.value with
    | .text value => .ok (.label c.relation, [.text key, .text value])
    | value => .error (.invalidLiteral c.field value .labelText)
  | .ok (.condition _) => .error (.conditionInDisjunction c.field)
  | .error _ => .error (.rejectedFields [c.field])

mutual

/-- The clause of a filter. -/
def Clause.ofExpr : Expr → Except FilterFault (Bound Clause)
  | .compare c => Clause.ofComparison c
  | .all parts => do
    let (clauses, params) ← Clause.ofParts parts
    return (.joined .and clauses, params)
  | .any parts => do
    let (clauses, params) ← Clause.ofParts parts
    return (.joined .or clauses, params)
  | .not part => do
    let (clause, params) ← Clause.ofExpr part
    return (.negated clause, params)

/-- The clauses of several filters from left to right. -/
def Clause.ofParts : List Expr → Except FilterFault (Bound (List Clause))
  | [] => .ok ([], [])
  | part :: parts => do
    let (clause, params) ← Clause.ofExpr part
    let (clauses, more) ← Clause.ofParts parts
    return (clause :: clauses, params ++ more)

end

/-! ## Queries -/

namespace Query

/-- The query of the clause of what is left of a filter, if anything is, and of its conditions. -/
def ofBound (rest : Option (Bound Clause)) (tests : List ConditionTest) : Query where
  parts := (rest.map (·.1)).toList ++ tests.map fun _ => .condition
  params := (rest.map (·.2)).getD [] ++ tests.flatMap (·.params)

/-- The query of a filter. -/
def ofExpr (e : Expr) : Except FilterFault Query :=
  let rejected := (e.leaves.map (·.field)).filter fun field => !(Target.ofField field).isOk
  if e.hasEmptyGroup then .error (.parse ⟨0, .emptyGroup⟩)
  else if rejected.isEmpty then do
    let split ← Split.ofExpr e
    match split.rest with
    | none => return ofBound none split.tests
    | some rest => return ofBound (some (← Clause.ofExpr rest)) split.tests
  else .error (.rejectedFields rejected)

/-- The query of the text of a filter; `none` if the text is blank. -/
def ofText (s : String) : Except FilterFault (Option Query) :=
  match Filter.parse s with
  | .error fault => .error (.parse fault)
  | .ok none => .ok none
  | .ok (some e) => do return some (← ofExpr e)

end Query
end StatusBoard

import StatusBoard.Query.Clause
import StatusBoard.Store.Contents
set_option autoImplicit false

/-!
# Store: predicates on rows

A predicate is a clause with its values filled in.  Truth is three-valued, since a comparison with something
that is not there is neither true nor false; it is computed with two values all the same: `holds` is told
what a leaf that is not known counts as, and a negation turns that round.  Parts of a group are looked at from
left to right, and not beyond the first that settles it; that shows, since a look may fail.

If all of several predicates have to hold, and one of them gives a column's value, the others need not look
at the column: `pinned` puts the value in its place.
-/

namespace StatusBoard

/-- A question that can be asked of a row. -/
inductive Predicate where
  /-- A column stands in a relation to a value.  If the column's value is known, it is not looked up. -/
  | compare (column : Filter.Column) (known : Option Cell) (relation : Filter.Relation) (value : Cell)
  | live
  | label (key : String) (relation : Filter.Relation) (value : String)
  | condition (type status : String)
  | joined (connective : Connective) (parts : List Predicate)
  | negated (part : Predicate)
  deriving Repr, Inhabited

/-- The cell of a parameter. -/
def Param.toCell : Param → Cell
  | .text s => .text s
  | .int i => .int i

/-- The text of a parameter. -/
def Param.toText : Param → String
  | .text s => s
  | .int i => String.ofList (Text.ofInt i.toInt)

namespace Predicate

/-! ## From clauses -/

/-- The parts of a predicate that is joined by a connective; else the predicate itself. -/
def partsOf (connective : Connective) : Predicate → List Predicate
  | joined c parts => if c = connective then parts else [joined c parts]
  | part => [part]

/-- Predicates joined, groups with the same connective merged. -/
def join (connective : Connective) (parts : List Predicate) : Predicate :=
  joined connective (parts.flatMap (partsOf connective))

mutual

/-- The predicate of a clause, whose question marks stand for the first of the parameters. -/
def ofClause (params : List Param) : Clause → Predicate
  | .column column relation => compare column none relation (params[0]?.elim .null Param.toCell)
  | .label relation => label (params[0]?.elim "" Param.toText) relation (params[1]?.elim "" Param.toText)
  | .condition => condition (params[0]?.elim "" Param.toText) (params[1]?.elim "" Param.toText)
  | .joined connective parts => join connective (ofClauses params parts)
  | .negated part => negated (ofClause params part)

/-- The predicates of several clauses that share their parameters. -/
def ofClauses (params : List Param) : List Clause → List Predicate
  | [] => []
  | part :: parts => ofClause params part :: ofClauses (params.drop part.holes) parts

end

/-! ## Truth -/

mutual

/-- The predicate holds of a row, if what is not known counts as a truth value. -/
def holds (r : ResourceRow) (unknown : Bool) : Predicate → Except DatabaseFault Bool
  | compare column known relation value =>
    .ok ((Cell.relate relation (known.getD (r.cell column)) value).getD unknown)
  | live => .ok r.isLive
  | label key relation value => do
    return ((← r.labels.member key).relate relation value).getD unknown
  | condition type status => r.hasCondition type status
  | joined .and parts => allHold r unknown parts
  | joined .or parts => anyHolds r unknown parts
  | negated part => do return !(← part.holds r !unknown)

/-- All of several predicates hold; looked at up to the first that does not. -/
def allHold (r : ResourceRow) (unknown : Bool) : List Predicate → Except DatabaseFault Bool
  | [] => .ok true
  | part :: parts => do
    if ← part.holds r unknown then allHold r unknown parts else return false

/-- One of several predicates holds; looked at up to the first that does. -/
def anyHolds (r : ResourceRow) (unknown : Bool) : List Predicate → Except DatabaseFault Bool
  | [] => .ok false
  | part :: parts => do
    if ← part.holds r unknown then return true else anyHolds r unknown parts

end

/-! ## Columns -/

mutual

/-- The answer can differ from row to row. -/
def readsRow : Predicate → Bool
  | compare _ known _ _ => known.isNone
  | live | label .. | condition .. => true
  | joined _ parts => someReadsRow parts
  | negated part => part.readsRow

/-- One of several answers can differ from row to row. -/
def someReadsRow : List Predicate → Bool
  | [] => false
  | part :: parts => part.readsRow || someReadsRow parts

end

mutual

/-- Nothing but some columns is named. -/
def isWithin (columns : List Filter.Column) : Predicate → Bool
  | compare column .. => column ∈ columns
  | live | label .. => false
  | condition .. => true
  | joined _ parts => allWithin columns parts
  | negated part => part.isWithin columns

/-- Nothing but some columns is named in several predicates. -/
def allWithin (columns : List Filter.Column) : List Predicate → Bool
  | [] => true
  | part :: parts => part.isWithin columns && allWithin columns parts

end

/-- The predicate looks for a condition. -/
def isCondition : Predicate → Bool
  | condition .. => true
  | _ => false

/-! ## Known values -/

/-- Columns with the values that they are known to have. -/
abbrev Known := List (Filter.Column × Cell)

mutual

/-- The predicate with known values in place of columns. -/
def pin (known : Known) : Predicate → Predicate
  | compare column old relation value => compare column (old <|> known.lookup column) relation value
  | joined connective parts => joined connective (pinAll known parts)
  | negated part => negated (part.pin known)
  | part => part

/-- Several predicates with known values in place of columns. -/
def pinAll (known : Known) : List Predicate → List Predicate
  | [] => []
  | part :: parts => part.pin known :: pinAll known parts

end

/-- What a predicate that has to hold tells of a column. -/
def gives : Predicate → Known
  | compare column none .eq value => [(column, value)]
  | _ => []

/-- What several predicates that all have to hold tell of columns; of several values of a column, the last is
found first. -/
def given : List Predicate → Known
  | [] => []
  | part :: parts => given parts ++ part.gives

/-- Predicates with known values in place of columns.  The last that gives a column's value stays as it is,
since it has to be asked of each row. -/
def pinBefore (known : Known) : List Predicate → List Predicate
  | [] => []
  | part :: parts =>
    let isLast := part.gives.any fun (column, _) => ((given parts).lookup column).isNone
    (if isLast then part else part.pin known) :: pinBefore known parts

/-- Predicates that all have to hold, with the values that they give in place of columns. -/
def pinned (parts : List Predicate) : List Predicate :=
  pinBefore (given parts) parts

end Predicate

/-- The predicates that all have to hold of the rows that a listing shows: those of a kind that are live,
and of which a query is true. -/
def Query.predicates (kind : String) (q : Option Query) : List Predicate :=
  let parts := q.elim [] fun q => (Predicate.ofClauses q.params q.parts).flatMap (Predicate.partsOf .and)
  Predicate.pinned (.compare .kind none .eq (.text kind) :: .live :: parts)

end StatusBoard

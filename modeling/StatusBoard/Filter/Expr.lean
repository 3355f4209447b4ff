import StatusBoard.Text.Decimal
set_option autoImplicit false

/-!
# Filter: expressions

A filter says which resources a listing shows.  It is a tree of comparisons of a field with a literal,
joined by conjunctions, disjunctions and negations.
-/

namespace StatusBoard.Filter

/-- How a field has to stand to a literal. -/
inductive Relation where
  | eq
  | ne
  | lt
  | le
  | gt
  | ge
  deriving DecidableEq, Repr, Inhabited

namespace Relation

/-- The sign of a relation, in filters and in queries alike. -/
def text : Relation → String
  | eq => "="
  | ne => "!="
  | lt => "<"
  | le => "<="
  | gt => ">"
  | ge => ">="

/-- The relation asks for more than whether two values are the same. -/
def isOrdering : Relation → Bool
  | eq | ne => false
  | lt | le | gt | ge => true

/-- The relation holds of two values that are ordered in a given way. -/
def holds : Relation → Ordering → Bool
  | eq, o => o == .eq
  | ne, o => o != .eq
  | lt, o => o == .lt
  | le, o => o != .gt
  | gt, o => o == .gt
  | ge, o => o != .lt

end Relation

/-- What a field is compared with. -/
inductive Literal where
  | text (value : String)
  | int (value : Int64)
  | bool (value : Bool)
  deriving DecidableEq, Repr, Inhabited

namespace Literal

/-- The characters of a text between single quotation marks: a mark inside is written twice. -/
def doubleQuotes (s : List Char) : List Char :=
  s.flatMap fun c => if c = '\'' then ['\'', '\''] else [c]

/-- The literal as it is written in a filter. -/
def toChars : Literal → List Char
  | text value => '\'' :: doubleQuotes value.toList ++ ['\'']
  | int value => Text.ofInt value.toInt
  | bool true => ['t', 'r', 'u', 'e']
  | bool false => ['f', 'a', 'l', 's', 'e']

/-- The literal as it is written in a filter. -/
def toText (l : Literal) : String :=
  String.ofList l.toChars

end Literal

/-- One comparison. -/
structure Comparison where
  field : String
  relation : Relation
  value : Literal
  deriving DecidableEq, Repr, Inhabited

/-- A filter. -/
inductive Expr where
  | compare (comparison : Comparison)
  /-- All of the parts hold. -/
  | all (parts : List Expr)
  /-- One of the parts holds. -/
  | any (parts : List Expr)
  | not (part : Expr)
  deriving Repr, Inhabited

namespace Expr

mutual

/-- The comparisons from left to right. -/
def leaves : Expr → List Comparison
  | compare c => [c]
  | all parts => leavesOfList parts
  | any parts => leavesOfList parts
  | not part => part.leaves

/-- The comparisons of several filters from left to right. -/
def leavesOfList : List Expr → List Comparison
  | [] => []
  | part :: parts => part.leaves ++ leavesOfList parts

end

mutual

/-- Somewhere in the filter nothing is joined. -/
def hasEmptyGroup : Expr → Bool
  | compare _ => false
  | all parts => parts.isEmpty || anyEmptyGroup parts
  | any parts => parts.isEmpty || anyEmptyGroup parts
  | not part => part.hasEmptyGroup

/-- One of several filters has an empty group. -/
def anyEmptyGroup : List Expr → Bool
  | [] => false
  | part :: parts => part.hasEmptyGroup || anyEmptyGroup parts

end

/-- Filters joined by a conjunction; a single one stands for itself. -/
def joinAll : List Expr → Expr
  | [part] => part
  | parts => all parts

/-- Filters joined by a disjunction; a single one stands for itself. -/
def joinAny : List Expr → Expr
  | [part] => part
  | parts => any parts

/-- A filter negated a number of times. -/
def negate : Nat → Expr → Expr
  | 0, part => part
  | n + 1, part => negate n (.not part)

end Expr
end StatusBoard.Filter

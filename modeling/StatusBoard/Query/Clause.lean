import StatusBoard.Filter.Field
import StatusBoard.Filter.Expr
set_option autoImplicit false

/-!
# Query: clauses and their parameters

A query on the table of resources is a row of clauses that all have to hold, and a list of parameters.  The
text of a clause has a question mark for each value that it compares with, and never the value: the values
are the parameters, in the order of the marks.
-/

namespace StatusBoard

/-- A value that takes the place of a question mark. -/
inductive Param where
  | text (value : String)
  | int (value : Int64)
  deriving DecidableEq, Repr, Inhabited

/-- What joins the parts of a group. -/
inductive Connective where
  | and
  | or
  deriving DecidableEq, Repr, Inhabited

/-- The word between two parts. -/
def Connective.text : Connective → String
  | and => " AND "
  | or => " OR "

/-- A clause on one resource, without its values. -/
inductive Clause where
  /-- A column stands in a relation to the value. -/
  | column (column : Filter.Column) (relation : Filter.Relation)
  /-- The label whose key is the first value stands in a relation to the second. -/
  | label (relation : Filter.Relation)
  /-- There is a condition whose type is the first value, and its status the second. -/
  | condition
  | joined (connective : Connective) (parts : List Clause)
  | negated (part : Clause)
  deriving Repr, Inhabited

namespace Clause

/-- The text of a question on a condition. -/
def conditionText : String :=
  "EXISTS (SELECT 1 FROM json_each(resources.status_conditions) AS cond " ++
  "WHERE json_extract(cond.value, '$.type') = ? AND json_extract(cond.value, '$.status') = ?)"

/-- The text of the value of a label. -/
def labelText : String :=
  "json_extract(labels, '$.\"' || ? || '\"')"

mutual

/-- The text of a clause. -/
def text : Clause → String
  | column c r => c.text ++ " " ++ r.text ++ " ?"
  | label r => labelText ++ " " ++ r.text ++ " ?"
  | condition => conditionText
  | joined connective parts => "(" ++ String.intercalate connective.text (texts parts) ++ ")"
  | negated part => "NOT (" ++ part.text ++ ")"

/-- The texts of several clauses. -/
def texts : List Clause → List String
  | [] => []
  | part :: parts => part.text :: texts parts

end

mutual

/-- The number of values that a clause takes. -/
def holes : Clause → Nat
  | column _ _ => 1
  | label _ => 2
  | condition => 2
  | joined _ parts => holesOfList parts
  | negated part => part.holes

/-- The number of values that several clauses take. -/
def holesOfList : List Clause → Nat
  | [] => 0
  | part :: parts => part.holes + holesOfList parts

end

end Clause

/-- Clauses that all have to hold, and the values of their question marks in order. -/
structure Query where
  parts : List Clause
  params : List Param
  deriving Repr, Inhabited

namespace Query

/-- The text of a query.  Several clauses are each put in parentheses. -/
def text (q : Query) : String :=
  match q.parts with
  | [part] => part.text
  | parts => String.intercalate " AND " ((Clause.texts parts).map fun s => "(" ++ s ++ ")")

end Query
end StatusBoard

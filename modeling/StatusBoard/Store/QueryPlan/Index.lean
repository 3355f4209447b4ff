import StatusBoard.Filter.Field
import StatusBoard.Store.QueryPlan.Magnitude
set_option autoImplicit false

/-!
# Query plan: the indexes on resources

An index holds rows in the order of some columns, so that the rows with given values in its first columns
stand side by side.  How many they are, and what it costs to get at them, is a guess that is the same
whatever the table holds.
-/

namespace StatusBoard.QueryPlan

/-- An index on the table of resources. -/
inductive Index where
  /-- By kind and time of creation. -/
  | creation
  /-- By kind and name, live rows only; no two rows are alike. -/
  | name
  /-- By identity; no two rows are alike. -/
  | identity
  deriving DecidableEq, Repr, Inhabited

namespace Index

/-- The indexes in the order in which they are tried. -/
def all : List Index :=
  [creation, name, identity]

/-- The columns by which rows are ordered. -/
def columns : Index → List Filter.Column
  | creation => [.kind, .createdTime, .id]
  | name => [.kind, .name]
  | identity => [.id]

/-- How many rows there are, then how many of them share the first column, the first two, and so on. -/
def sizes : Index → List Magnitude
  | creation => [200, 33, 32, 30]
  | name => [190, 33, 0]
  | identity => [200, 0]

/-- How many rows there are. -/
def size (i : Index) : Magnitude :=
  i.sizes.headD 0

/-- How much fewer rows there are for one more column, the number of columns so far given. -/
def narrowing (i : Index) (columns : Nat) : Magnitude :=
  i.sizes.getD (columns + 1) 0 - i.sizes.getD columns 0

/-- What going from one entry to the next costs. -/
def stepCost : Index → Magnitude
  | creation => 13
  | name => 12
  | identity => 10

/-- What finding the first entry costs. -/
def seekCost (i : Index) : Magnitude :=
  Magnitude.logarithm i.size

/-- What looking up the row of an entry costs. -/
def rowCost : Magnitude := 16

/-- What it costs to go through a number of entries and their rows. -/
def cost (i : Index) (entries : Magnitude) : Magnitude :=
  ((i.seekCost).plus (entries + i.stepCost)).plus (entries + rowCost)

/-- No two rows share all columns. -/
def isUnique : Index → Bool
  | creation => false
  | name | identity => true

/-- Only live rows are in it. -/
def isPartial : Index → Bool
  | name => true
  | creation | identity => false

end Index
end StatusBoard.QueryPlan

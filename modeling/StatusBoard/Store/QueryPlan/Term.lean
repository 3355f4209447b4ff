import StatusBoard.Store.QueryPlan.Magnitude
import StatusBoard.Store.Predicate
set_option autoImplicit false

/-!
# Query plan: terms

A term is what matters to planning of one of several predicates that all have to hold: what an index could do
with it.  A disjunction of equalities of one column is a membership as well; it has a second term for that,
which stands behind the terms of the predicates.
-/

namespace StatusBoard.QueryPlan

/-- What an index can do with a term. -/
inductive Use where
  /-- The column has a value. -/
  | equal (column : Filter.Column)
  /-- The column has one of some values, as a disjunction among the terms says. -/
  | among (column : Filter.Column) (count : Nat) (disjunction : Nat)
  | above (column : Filter.Column)
  | below (column : Filter.Column)
  /-- One of the parts holds. -/
  | anyOf
  /-- All of the parts hold. -/
  | allOf
  | nothing
  deriving DecidableEq, Repr, Inhabited

/-- A predicate as planning sees it.  Its path tells it from all other terms. -/
inductive Term where
  | mk (path : List Nat) (readsRow : Bool) (use : Use) (parts : List Term)
  deriving Inhabited

namespace Term

/-- The place of a term among all. -/
def path : Term → List Nat
  | mk path _ _ _ => path

/-- The answer can differ from row to row. -/
def readsRow : Term → Bool
  | mk _ readsRow _ _ => readsRow

/-- What an index can do with a term. -/
def use : Term → Use
  | mk _ _ use _ => use

/-- The parts of a disjunction or a group in one. -/
def parts : Term → List Term
  | mk _ _ _ parts => parts

end Term

namespace Use

/-- The use of a comparison. -/
def ofRelation (column : Filter.Column) : Filter.Relation → Use
  | .eq => equal column
  | .lt | .le => below column
  | .gt | .ge => above column
  | .ne => nothing

/-- The column has a value. -/
def isEquality : Use → Bool
  | equal _ => true
  | _ => false

/-- The column has one of some values. -/
def isMembership : Use → Bool
  | among .. => true
  | _ => false

/-- The column has a value, or one of some values. -/
def isFixing (u : Use) : Bool :=
  u.isEquality || u.isMembership

/-- The column of which an index has to be. -/
def column? : Use → Option Filter.Column
  | equal c | among c _ _ | above c | below c => some c
  | anyOf | allOf | nothing => none

end Use

namespace Term

/-- The column that all of several terms give a value. -/
def commonColumn? : List Term → Option Filter.Column
  | [] => none
  | [t] =>
    match t.use with
    | .equal c => some c
    | _ => none
  | t :: ts =>
    match t.use with
    | .equal c => if commonColumn? ts = some c then some c else none
    | _ => none

/-- The membership that a disjunction is as well. -/
def membership? (path : List Nat) (position : Nat) (t : Term) : Option Term :=
  match t.use, commonColumn? t.parts with
  | .anyOf, some c => some (mk path t.readsRow (.among c t.parts.length position) [])
  | _, _ => none

/-- Several terms, and behind them the memberships, that of the last disjunction first. -/
def withMemberships (path : List Nat) (ts : List Term) : List Term :=
  ts ++ ts.zipIdx.reverse.filterMap fun (t, i) => membership? (path ++ [ts.length + i]) i t

mutual

/-- The term of a predicate.  Inside of a disjunction, a conjunction is a group of terms. -/
def ofPredicate (path : List Nat) (isBranch : Bool) : Predicate → Term
  | .compare column known relation _ => mk path known.isNone (.ofRelation column relation) []
  | .joined .or parts =>
    mk path (Predicate.someReadsRow parts) (if isBranch then .nothing else .anyOf) (ofParts path 0 true parts)
  | .joined .and parts =>
    mk path (Predicate.someReadsRow parts) (if isBranch then .allOf else .nothing)
      (withMemberships path (ofParts path 0 false parts))
  | part => mk path part.readsRow .nothing []

/-- The terms of several predicates. -/
def ofParts (path : List Nat) (position : Nat) (isBranch : Bool) : List Predicate → List Term
  | [] => []
  | part :: parts =>
    ofPredicate (path ++ [position]) isBranch part :: ofParts path (position + 1) isBranch parts

end

/-- The terms of predicates that all have to hold. -/
def ofConjuncts (parts : List Predicate) : List Term :=
  withMemberships [] (ofParts [] 0 false parts)

/-- An index can do something with a branch of a disjunction. -/
def isIndexableBranch (t : Term) : Bool :=
  match t.use with
  | .allOf => t.parts.any fun part => part.use.column?.isSome
  | use => use.column?.isSome

/-- Indexes can do something with every branch of a disjunction. -/
def isIndexable (t : Term) : Bool :=
  t.use = .anyOf && t.parts.all isIndexableBranch

end Term
end StatusBoard.QueryPlan

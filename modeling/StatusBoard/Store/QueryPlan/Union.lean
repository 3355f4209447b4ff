import StatusBoard.Store.QueryPlan.Loop
set_option autoImplicit false

/-!
# Query plan: unions

The rows of a disjunction can be had branch by branch, each along the index that suits it best, if there is
one for every branch.  A branch can use the terms beside the disjunction as well, and those around it.
-/

namespace StatusBoard.QueryPlan

/-- A guess of what it costs to go through rows, and how many they are. -/
structure Estimate where
  cost : Magnitude
  rows : Magnitude
  deriving DecidableEq, Repr, Inhabited

namespace Estimate

/-- Both one after the other. -/
def plus (a b : Estimate) : Estimate :=
  ⟨a.cost.plus b.cost, a.rows.plus b.rows⟩

/-- The cheaper of two ways, the second if they cost the same. -/
def offer (best : Option Estimate) (e : Estimate) : Option Estimate :=
  match best with
  | none => some e
  | some b => some (if e.cost ≤ b.cost then ⟨e.cost, min b.rows e.rows⟩ else b)

end Estimate

namespace Term

/-- The cheapest loop along an index for some terms.  The loops that there are already keep it in proportion.
An index of live rows only is left out, since nothing among the terms says that a row is live. -/
def alongIndex? (loops : List Loop) (clause candidates : List Term) : Option Estimate :=
  (Index.all.filter fun i => !i.isPartial).foldl (fun best i =>
    Search.addLoops (fun best l => Estimate.offer best ⟨(l.adjust loops).cost, (l.adjust loops).rows⟩)
      ⟨i, clause, candidates, 0⟩ best) none

mutual

/-- What it costs to go through the branches of a disjunction, given the terms around it. -/
def union? (loops : List Loop) (outer : List Term) : Term → Option Estimate
  | mk _ _ _ branches => (sum? loops outer none branches).map fun e => ⟨e.cost + 1, e.rows⟩
termination_by structural t => t

/-- What it costs to go through some branches, after others. -/
def sum? (loops : List Loop) (outer : List Term) (before : Option Estimate) : List Term → Option Estimate
  | [] => before
  | t :: ts =>
    match t.branch? loops outer with
    | none => none
    | some e => sum? loops outer (some (before.elim e (·.plus e))) ts
termination_by structural ts => ts

/-- The cheapest way to go through a branch. -/
def branch? (loops : List Loop) (outer : List Term) : Term → Option Estimate
  | mk path readsRow use parts =>
    match use with
    | .allOf =>
      let candidates := parts ++ outer
      cheapest? loops candidates (alongIndex? loops parts candidates) parts
    | use =>
      let t := mk path readsRow use parts
      alongIndex? loops [t] (t :: outer)
termination_by structural t => t

/-- The best way so far, or going through one of the disjunctions among some terms. -/
def cheapest? (loops : List Loop) (outer : List Term) (best : Option Estimate) :
    List Term → Option Estimate
  | [] => best
  | t :: ts =>
    let offered := if t.isIndexable then t.union? loops outer else none
    cheapest? loops outer (offered.elim best (Estimate.offer best)) ts
termination_by structural ts => ts

end

end Term
end StatusBoard.QueryPlan

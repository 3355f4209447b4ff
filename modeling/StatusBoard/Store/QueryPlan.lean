import StatusBoard.Store.QueryPlan.Union
set_option autoImplicit false

/-!
# Query plan: how a query goes through the table

A plan says along which index a query goes through the rows, or that it goes through the branches of a
disjunction one after the other, each with a plan of its own.  `forCount` and `forListing` take the plan that
looks cheapest.  Whatever the plan, `selects` selects the same rows; what the plan does change is the order in
which predicates are looked at, and so whether a damaged row is noticed: those that the index can answer come
first, the rest as they are written, and the search for conditions last.
-/

namespace StatusBoard

/-- A way to go through the table. -/
inductive QueryPlan where
  | table
  | along (index : QueryPlan.Index)
  /-- Branch by branch of the disjunction at a position: the predicates of each, and its plan. -/
  | union (position : Nat) (branches : List (List Predicate × QueryPlan))
  deriving Inhabited

namespace QueryPlan

/-! ## Choice -/

/-- All loops worth considering for some terms.  If rows are to be listed, loops along different indexes are
not comparable where the order of the index could be of use. -/
def loops (isListing : Bool) (terms : List Term) : List Loop :=
  let order : Index → Nat
    | .creation => if isListing then 2 else 0
    | .name => 0
    | .identity => if isListing then 4 else 0
  let scan : Loop := { access := .table, terms := [], cost := 216, rows := 200 }
  let along := Index.all.foldl (fun loops i =>
    Search.addLoops Loops.insert ⟨i, terms, terms, order i⟩ loops) [scan]
  terms.zipIdx.foldl (fun loops (t, i) =>
    match if t.isIndexable then t.union? loops terms else none with
    | some e =>
      Loops.insert loops { access := .union i, terms := [t], cost := e.cost, rows := e.rows }
    | none => loops) along

/-- What a loop is judged by, the most important first. -/
structure Price where
  total : Magnitude
  rows : Magnitude
  /-- The price without sorting, slightly lower if there is nothing to sort. -/
  unsorted : Magnitude
  deriving DecidableEq, Repr, Inhabited

namespace Price

/-- A price is lower than another. -/
def isBelow (p q : Price) : Bool :=
  p.total < q.total ||
  (p.total = q.total && (p.rows < q.rows || (p.rows = q.rows && p.unsorted < q.unsorted)))

/-- The price of a loop whose order is of no matter, run a number of times.  Nothing has to be prepared for it,
and nothing was spent before it; nothing counts as one each time. -/
def ofLoop (repeats : Magnitude) (l : Loop) : Price :=
  let cost := ((l.cost + min repeats 48).plus 0).plus 0
  ⟨cost, min repeats 48 + l.rows, cost - 2⟩

end Price

/-- The first of the loops with the lowest price. -/
def cheapest (price : Loop → Price) : List Loop → Option Loop
  | [] => none
  | l :: ls => some (ls.foldl (fun best l => if (price l).isBelow (price best) then l else best) l)

/-! ## Order -/

/-- What a listing is ordered by. -/
def listingOrder : List Filter.Column :=
  [.createdTime, .id]

/-- The columns of the listing's order that are left if rows come in the order of some columns of an index, of
which the first are restricted by terms. -/
def unordered : List Filter.Column → List Term → List Filter.Column → List Filter.Column
  | c :: cs, t :: ts, wanted =>
    match t.use with
    | .equal _ => unordered cs ts wanted
    | _ => if wanted.head? = some c then unordered cs ts wanted.tail else wanted
  | c :: cs, [], wanted => if wanted.head? = some c then unordered cs [] wanted.tail else wanted
  | [], _, wanted => wanted

/-- How many columns of the listing's order a loop satisfies. -/
def orderedColumns (terms : List Term) (l : Loop) : Nat :=
  let isGiven (c : Filter.Column) : Bool := terms.any fun t => t.use = .equal c
  let wanted := listingOrder.filter fun c => !isGiven c
  match l.access with
  | .index i =>
    let left := unordered i.columns (l.terms.filter (·.use.isFixing)) wanted
    if l.isSingle || left.isEmpty then listingOrder.length
    else if left.head? = listingOrder.head? then 0
    else 1
  | _ => 0

/-- The price of a loop whose rows are listed: unless they come in order, it includes sorting them. -/
def Price.ofListing (terms : List Term) (rows : Magnitude) (l : Loop) : Price :=
  let p := Price.ofLoop 0 l
  let ordered := orderedColumns terms l
  if ordered < listingOrder.length then
    let part : Magnitude := if ordered = 0 then 0 else -10
    let sorting := rows + 10 + part + Magnitude.logarithm rows
    ⟨p.total.plus sorting + 3, p.rows, p.total⟩
  else p

/-! ## Plans -/

/-- A predicate beside a disjunction is of use in its branches. -/
def isShared : Predicate → Bool
  | .compare _ known relation _ => known.isNone && relation ≠ .ne
  | .live => true
  | .joined .or parts => Predicate.someReadsRow parts
  | _ => false

/-- The branches of the disjunction at a position, each with the predicates beside it. -/
def branchesAt (position : Nat) (parts : List Predicate) : List (List Predicate) :=
  let shared := (parts.zipIdx.filter fun (part, i) => i ≠ position && isShared part).map (·.1)
  match parts[position]? with
  | some (.joined .or branches) => branches.map fun b => b.partsOf .and ++ shared
  | _ => []

/-- The plan that follows a loop; the branches of a disjunction are planned as often as it takes rows to get
there.  The first argument bounds the nesting of disjunctions. -/
def ofLoop : Nat → Magnitude → List Predicate → Loop → QueryPlan
  | 0, _, _, _ => table
  | depth + 1, repeats, parts, l =>
    match l.access with
    | .table => table
    | .index i => along i
    | .union position =>
      let repeats := repeats + min repeats 48 + l.rows
      union position ((branchesAt position parts).map fun branch =>
        let inner := cheapest (Price.ofLoop repeats) (loops false (Term.ofConjuncts branch))
        (branch, inner.elim table (ofLoop depth repeats branch)))

mutual

/-- The number of predicates that a predicate is made of. -/
def weight : Predicate → Nat
  | .joined _ parts => weightOfList parts + 1
  | .negated part => weight part + 1
  | _ => 1

/-- The number of predicates that several predicates are made of. -/
def weightOfList : List Predicate → Nat
  | [] => 0
  | part :: parts => weight part + weightOfList parts

end

/-- The term gives the identity. -/
def givesId (t : Term) : Bool :=
  t.use = .equal .id

/-- The plan for predicates that all have to hold, if rows are only counted. -/
def forCount (parts : List Predicate) : QueryPlan :=
  let terms := Term.ofConjuncts parts
  if terms.any givesId then along .identity
  else (cheapest (Price.ofLoop 0) (loops false terms)).elim table (ofLoop (weightOfList parts) 0 parts)

/-- The plan for predicates that all have to hold, if rows are listed, and whether they come in order.  How many
rows there are to sort is taken from the loop that would be the cheapest without sorting; at a magnitude of
zero, order is not thought of at all. -/
def forListing (parts : List Predicate) : QueryPlan × Bool :=
  let terms := Term.ofConjuncts parts
  let loops := loops true terms
  if terms.any givesId then (along .identity, true)
  else match cheapest (Price.ofLoop 0) loops with
    | none => (table, false)
    | some l =>
      let rows := l.rows + 1
      let plan := ofLoop (weightOfList parts) 0 parts
      if rows = 0 then (plan l, false)
      else match cheapest (Price.ofListing terms rows) loops with
        | none => (plan l, false)
        | some l => (plan l, orderedColumns terms l = listingOrder.length)

/-! ## Rows -/

/-- Predicates in the order in which they are looked at: those that need no row, those that something else
answers already, all others, and conditions last. -/
def arrange (isAnswered : Predicate → Bool) (parts : List Predicate) : List Predicate :=
  let (reading, fixed) := parts.partition (·.readsRow)
  let (conditions, others) := reading.partition (·.isCondition)
  let (answered, open_) := others.partition isAnswered
  fixed ++ answered ++ open_ ++ conditions

/-- An index answers a predicate. -/
def Index.answers (i : Index) (part : Predicate) : Bool :=
  match part with
  | .live => i.isPartial
  | part => part.isWithin i.columns

mutual

/-- A plan for some predicates selects a row. -/
def selects (r : ResourceRow) (parts : List Predicate) : QueryPlan → Except DatabaseFault Bool
  | table => Predicate.allHold r false (arrange (fun _ => false) parts)
  | along i => Predicate.allHold r false (arrange i.answers parts)
  | union position branches => do
    if ← Predicate.allHold r false (parts.filter fun part => !part.readsRow) then
      if ← someSelect r branches then
        Predicate.allHold r false (arrange (fun _ => false) (parts.eraseIdx position))
      else return false
    else return false

/-- The plan of some branch selects a row.  All branches are gone through. -/
def someSelect (r : ResourceRow) : List (List Predicate × QueryPlan) → Except DatabaseFault Bool
  | [] => .ok false
  | (parts, plan) :: branches => do
    let selected ← plan.selects r parts
    let others ← someSelect r branches
    return selected || others

end

end QueryPlan
end StatusBoard

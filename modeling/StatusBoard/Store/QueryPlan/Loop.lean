import StatusBoard.Store.QueryPlan.Index
import StatusBoard.Store.QueryPlan.Term
set_option autoImplicit false

/-!
# Query plan: loops

A loop is one way to go through rows: along an index, restricted by some terms, or along several indexes for
the branches of a disjunction.  Its cost and the number of rows that it leaves are guesses.  `addLoops` finds
the loops along an index; `Loops.insert` keeps of all loops those that no other beats.
-/

namespace StatusBoard.QueryPlan

/-- What a loop goes along. -/
inductive Access where
  /-- All rows of the table. -/
  | table
  | index (index : Index)
  /-- The branches of the disjunction at a position among the terms. -/
  | union (position : Nat)
  deriving DecidableEq, Repr, Inhabited

/-- A way to go through rows. -/
structure Loop where
  access : Access
  /-- The terms that restrict the loop, in the order of the columns. -/
  terms : List Term
  /-- Not more than one row is left. -/
  isSingle : Bool := false
  cost : Magnitude
  rows : Magnitude
  /-- Which loops are comparable: those whose rows come in the same order, as far as that matters. -/
  order : Nat := 0
  deriving Inhabited

namespace Loop

/-- The loop goes along an index. -/
def isAlongIndex (l : Loop) : Bool :=
  match l.access with
  | .index _ => true
  | _ => false

/-- One of the terms that restrict the loop is a given one. -/
def hasTerm (l : Loop) (t : Term) : Bool :=
  l.terms.any fun u => u.path = t.path

/-- One of the terms that restrict the loop is a membership of the disjunction at a position. -/
def hasMembership (l : Loop) (position : Nat) : Bool :=
  l.terms.any fun u =>
    match u.use with
    | .among _ _ p => p = position
    | _ => false

/-- A loop is at least as good as another. -/
def isAsGoodAs (l m : Loop) : Bool :=
  l.cost ≤ m.cost && l.rows ≤ m.rows

/-! ## Costs -/

/-- The loop once the terms that do not restrict it are taken into account, given how many rows there are:
each leaves fewer rows. -/
def cull (clause : List Term) (size : Magnitude) (l : Loop) : Loop :=
  let unused := clause.zipIdx.filter fun (t, i) =>
    t.readsRow && !t.use.isMembership && !l.hasTerm t && !l.hasMembership i
  let equal := unused.any fun (t, _) => t.use.isEquality
  { l with rows := min (l.rows - (unused.length : Int)) (size - if equal then 20 else 0) }

/-- The number of columns with a value, or one of some values. -/
def fixedColumns (l : Loop) : Nat :=
  l.terms.countP fun t => t.use.isFixing

/-- A loop is less restricted than another: it fixes fewer columns of the same index, or its terms are some of
those of the other.  One that is both costlier and less selective is not compared like that. -/
def isPartOf (l m : Loop) : Bool :=
  !(m.cost < l.cost && m.rows < l.rows) &&
  ((l.access = m.access && l.fixedColumns < m.fixedColumns) ||
    (l.terms.length < m.terms.length && l.terms.all m.hasTerm))

/-- The loop compared with one that is there already: whichever is restricted further should cost no more,
and leave fewer rows. -/
def adjustTo (m l : Loop) : Loop :=
  if !m.isAlongIndex || !l.isAlongIndex then l
  else if m.isPartOf l then { l with cost := min m.cost l.cost, rows := min (m.rows - 1) l.rows }
  else if l.isPartOf m then { l with cost := max m.cost l.cost, rows := max (m.rows + 1) l.rows }
  else l

/-- The loop compared with all that are there already. -/
def adjust (loops : List Loop) (l : Loop) : Loop :=
  loops.foldl (fun l m => adjustTo m l) l

end Loop

/-! ## Collections -/

namespace Loops

/-- Loops behind one that has been replaced, without those that the new one beats as well. -/
def purge (l : Loop) : List Loop → List Loop
  | [] => []
  | m :: ms =>
    if m.order ≠ l.order then m :: purge l ms
    else if m.isAsGoodAs l then m :: ms
    else if l.isAsGoodAs m then purge l ms
    else m :: purge l ms

/-- Loops with one more, unless a comparable one is as good; it takes the place of the first that it beats. -/
def place? (l : Loop) : List Loop → Option (List Loop)
  | [] => some [l]
  | m :: ms =>
    if m.order ≠ l.order then (place? l ms).map (m :: ·)
    else if m.isAsGoodAs l then none
    else if l.isAsGoodAs m then some (l :: purge l ms)
    else (place? l ms).map (m :: ·)

/-- Loops with one more, if it is worth it. -/
def insert (loops : List Loop) (l : Loop) : List Loop :=
  (place? (l.adjust loops) loops).getD loops

end Loops

/-! ## Along an index -/

/-- A search of an index in progress. -/
structure Search where
  index : Index
  /-- The terms of the clause that is planned. -/
  clause : List Term
  /-- All terms that can restrict a loop. -/
  candidates : List Term
  order : Nat

namespace Search

/-- Some loops that are restricted by terms on the first columns: how far that narrows the rows, and how often
the search is repeated because of memberships. -/
structure Reach where
  terms : List Term := []
  rows : Magnitude
  repeats : Magnitude := 0

/-- The rows that a range leaves, given how many bounds it has. -/
def rangeRows (rows : Magnitude) (bounds : Nat) : Magnitude :=
  let guess := max 10 (if bounds = 1 then rows - 20 else rows - 60)
  min guess (rows - bounds)

/-- Every column has a single value, and no two rows share all of them. -/
def isSingle (s : Search) (r : Reach) : Bool :=
  s.index.isUnique && r.repeats = 0 && r.terms.length = s.index.columns.length &&
  r.terms.all fun t => t.use.isEquality

/-- The loop that reaches some rows. -/
def loop (s : Search) (r : Reach) : Loop :=
  let l : Loop := {
    access := .index s.index
    terms := r.terms
    isSingle := s.isSingle r
    cost := s.index.cost r.rows + r.repeats
    rows := r.rows + r.repeats
    order := s.order }
  l.cull s.clause s.index.size

/-- The terms that bound a column from above. -/
def upperBounds (s : Search) (column : Filter.Column) : List Term :=
  s.candidates.filter fun t => t.use = .below column

/-- The loops that a term on a column gives, collected, and how far it reaches if further columns can be
restricted behind it. -/
def addTerm {α : Type} (add : α → Loop → α) (s : Search) (column : Filter.Column) (r : Reach)
    (t : Term) (acc : α) : α × Option Reach :=
  let terms := r.terms ++ [t]
  let rows := r.rows + s.index.narrowing r.terms.length
  match t.use with
  | .equal c =>
    let reached : Reach := ⟨terms, rows, r.repeats⟩
    if c = column then (add acc (s.loop reached), some reached) else (acc, none)
  | .among c count _ =>
    let reached : Reach := ⟨terms, rows, r.repeats + .ofNat count⟩
    if c = column then (add acc (s.loop reached), some reached) else (acc, none)
  | .above c =>
    if c = column then
      let acc := add acc (s.loop ⟨terms, rangeRows r.rows 1, r.repeats⟩)
      ((s.upperBounds column).foldl (fun acc u =>
        add acc (s.loop ⟨terms ++ [u], rangeRows r.rows 2, r.repeats⟩)) acc, none)
    else (acc, none)
  | .below c =>
    if c = column then (add acc (s.loop ⟨terms, rangeRows r.rows 1, r.repeats⟩), none)
    else (acc, none)
  | _ => (acc, none)

/-- The loops with some terms on the columns that are left, collected. -/
def addColumns {α : Type} (add : α → Loop → α) (s : Search) :
    List Filter.Column → Reach → α → α
  | [], _, acc => acc
  | column :: columns, r, acc =>
    s.candidates.foldl (fun acc t =>
      match s.addTerm add column r t acc with
      | (acc, some reached) => addColumns add s columns reached acc
      | (acc, none) => acc) acc

/-- All loops along the index, collected. -/
def addLoops {α : Type} (add : α → Loop → α) (s : Search) (acc : α) : α :=
  addColumns add s s.index.columns { rows := s.index.size } acc

end Search
end StatusBoard.QueryPlan

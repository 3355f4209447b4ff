set_option autoImplicit false

/-!
# Store: pages

Listings are cut into pages, counted from one.  Where a page starts is computed in 64-bit arithmetic, which
wraps around at its limits.
-/

namespace StatusBoard

/-- A page that is asked for. -/
structure PageRequest where
  page : UInt32
  pageSize : UInt32
  deriving DecidableEq, Repr, Inhabited

namespace PageRequest

/-- The request with page and size of at least one. -/
def clamped (page pageSize : UInt32) : PageRequest :=
  ⟨max page 1, max pageSize 1⟩

/-- The number of items before the page. -/
def offset (p : PageRequest) : Int64 :=
  (max p.page 1 - 1).toUInt64.toInt64 * p.pageSize.toUInt64.toInt64

/-- The most items that the page can have. -/
def limit (p : PageRequest) : Nat :=
  (max p.pageSize 1).toNat

/-- The number of items that are skipped; an offset below zero counts as none. -/
def skipped (p : PageRequest) : Nat :=
  p.offset.toInt.toNat

/-- The items of the page. -/
def slice {α : Type} (p : PageRequest) (items : List α) : List α :=
  (items.drop p.skipped).take p.limit

end PageRequest

/-- A page of a listing, and the number of items on all pages. -/
structure Page (α : Type) where
  items : List α
  page : UInt32
  pageSize : UInt32
  total : Nat
  deriving Repr, Inhabited

/-- The page of a listing, each item read by a reader that may fail. -/
def Page.of {α β ε : Type} (p : PageRequest) (read : α → Except ε β) (items : List α) :
    Except ε (Page β) := do
  let found ← (p.slice items).mapM read
  return { items := found, page := p.page, pageSize := p.pageSize, total := items.length }

/-- The page with every item converted. -/
def Page.mapM {α β ε : Type} (p : Page α) (convert : α → Except ε β) : Except ε (Page β) := do
  let items ← p.items.mapM convert
  return { items, page := p.page, pageSize := p.pageSize, total := p.total }

end StatusBoard

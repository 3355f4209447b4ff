import StatusBoard.Store.Decoding
import StatusBoard.Store.Page
import StatusBoard.Store.Selection
import StatusBoard.Store.Transaction
set_option autoImplicit false

/-!
# Store: operations on resources

A resource is created, read, found, given conditions, and deleted together with the statuses that adapters
have of it.  What is written is read back before it counts, so that nothing is stored that could not be
read.
-/

namespace StatusBoard.Store

/-! ## Reading -/

/-- The live resource, if there is one. -/
def getResource (s : Store) (cancel : Cancellation) (resource : ResourceRef) :
    Except StoreError (Option Resource) := do
  cancel.checkStart
  match s.findResource? resource with
  | none => return none
  | some row => return some (← Resource.ofRow row)

/-- The live resources of a kind that a query selects, oldest first. -/
def search (s : Store) (cancel : Cancellation) (kind : String) (query : Option Query) (page : PageRequest) :
    Except StoreError (Page Resource) := do
  cancel.checkStart
  (Query.prepare .count query).mapError .database
  let total ← Selection.count (Query.predicates kind query) s.resources
  (Query.prepare .listing query).mapError .database
  let items ← Selection.items Resource.ofRow page (Query.predicates kind query) s.resources
  return { items, page := page.page, pageSize := page.pageSize, total }

/-! ## Writing -/

/-- A live row of the kind has the name, or a row the identity. -/
def isTaken (s : Store) (row : ResourceRow) : Bool :=
  s.resources.any fun r => r.id = row.id || (r.isLive && r.kind = row.kind && r.name = row.name)

/-- Creates a resource with a fresh identity. -/
def createResource (s : Store) (cancel : Cancellation) (id : Uuid) (kind : String) (new : NewResource)
    (now : Instant) : Answer Resource :=
  s.commit do
    cancel.checkStart
    let row := new.toRow id kind now
    if s.isTaken row then throw (.nameTaken kind new.name)
    let draft := { s with resources := s.resources ++ [row] }
    let resource : ResourceRef := ⟨kind, id.toText⟩
    match ← getResource draft .never resource with
    | none => throw (.notFound (.resource resource))
    | some created =>
      cancel.checkEnd false
      return (draft, created)

/-- The live rows that match are marked as deleted. -/
def markDeleted (s : Store) (resource : ResourceRef) (now : Instant) : Store where
  resources := s.resources.map fun r =>
    if r.isOf resource then { r with deletedTime := .text now.toStorageText } else r
  statuses := s.statuses.map fun r =>
    if r.isAbout resource then { r with deletedTime := .text now.toStorageText } else r

/-- Deletes a resource, and with it every status of it. -/
def deleteResource (s : Store) (cancel : Cancellation) (resource : ResourceRef) (now : Instant) :
    Answer Unit :=
  s.commit do
    cancel.checkStart
    if (s.findResource? resource).isNone then throw (.notFound (.resource resource))
    cancel.checkEnd false
    return (s.markDeleted resource now, ())

/-- New text for a column of conditions, and whether making it cancelled the operation. -/
structure Replacement where
  raw : String
  cancels : Bool := false
  deriving DecidableEq, Repr, Inhabited

/-- A resource's conditions are set to a text. -/
def setConditions (s : Store) (resource : ResourceRef) (raw : String) (now : Instant) : Store :=
  { s with
    resources := s.resources.map fun r =>
      if r.isOf resource then
        { r with statusConditions := .text raw, updatedTime := .text now.toStorageText }
      else r }

/-- The text of a resource's conditions. -/
def conditionsText (s : Store) (resource : ResourceRef) : Except StoreError String :=
  match s.findResource? resource with
  | none => .error (.notFound (.resource resource))
  | some row => StatusColumns.textAt row.statusConditions 0 "status_conditions"

/-- Replaces the text of a resource's conditions by one that is made from it. -/
def updateConditions (s : Store) (cancel : Cancellation) (resource : ResourceRef) (now : Instant)
    (replace : String → Replacement) : Answer Resource :=
  s.commit do
    cancel.checkStart
    let replacement := replace (← s.conditionsText resource)
    let draft := s.setConditions resource replacement.raw now
    match ← getResource draft .never resource with
    | none => throw (.notFound (.resource resource))
    | some updated =>
      cancel.checkEnd replacement.cancels
      return (draft, updated)

end StatusBoard.Store

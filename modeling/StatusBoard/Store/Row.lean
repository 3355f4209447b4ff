import StatusBoard.Report
import StatusBoard.Store.Cell
set_option autoImplicit false

/-!
# Store: rows and tables

Two tables: resources, and what adapters say about them.  A row is live until its time of deletion is set.
Rows are kept as cells, since a row may have been edited by hand; what a well-formed row means is decided
when it is read.
-/

namespace StatusBoard

/-- A row of the table of resources. -/
structure ResourceRow where
  id : Cell
  kind : Cell
  name : Cell
  labels : Cell
  spec : Cell
  generation : Cell
  statusConditions : Cell
  createdTime : Cell
  updatedTime : Cell
  deletedTime : Cell := .null
  deriving DecidableEq, Repr, Inhabited

/-- A row of the table of adapter statuses. -/
structure StatusRow where
  id : Cell
  resourceType : Cell
  resourceId : Cell
  adapter : Cell
  observedGeneration : Cell
  conditions : Cell
  data : Cell
  metadata : Cell
  createdTime : Cell
  lastReportTime : Cell
  deletedTime : Cell := .null
  deriving DecidableEq, Repr, Inhabited

namespace ResourceRow

/-- The row has not been deleted. -/
def isLive (r : ResourceRow) : Bool :=
  r.deletedTime = .null

/-- The row is live and is that of a resource. -/
def isOf (r : ResourceRow) (resource : ResourceRef) : Bool :=
  r.kind = .text resource.kind && r.id = .text resource.id && r.isLive

end ResourceRow

namespace StatusRow

/-- The row has not been deleted. -/
def isLive (r : StatusRow) : Bool :=
  r.deletedTime = .null

/-- The row is live and is about a resource. -/
def isAbout (r : StatusRow) (resource : ResourceRef) : Bool :=
  r.resourceType = .text resource.kind && r.resourceId = .text resource.id && r.isLive

/-- The row is live and has a key. -/
def isOf (r : StatusRow) (key : StatusKey) : Bool :=
  r.isAbout key.owner && r.adapter = .text key.adapter

end StatusRow

/-- The two tables, rows in the order of their insertion. -/
structure Store where
  resources : List ResourceRow := []
  statuses : List StatusRow := []
  deriving DecidableEq, Repr, Inhabited

namespace Store

/-- No rows. -/
def empty : Store := {}

/-- The live row of a resource. -/
def findResource? (s : Store) (resource : ResourceRef) : Option ResourceRow :=
  s.resources.find? (·.isOf resource)

/-- The live row of a key. -/
def findStatus? (s : Store) (key : StatusKey) : Option StatusRow :=
  s.statuses.find? (·.isOf key)

end Store
end StatusBoard

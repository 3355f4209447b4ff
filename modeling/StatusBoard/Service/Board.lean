import StatusBoard.Condition.Mandatory
import StatusBoard.Condition.Merge
import StatusBoard.Query.FromFilter
import StatusBoard.Service.Error
import StatusBoard.Settings
import StatusBoard.Store.Resources
import StatusBoard.Store.Statuses
set_option autoImplicit false

/-!
# Service: the board

The board answers requests.  A report by an adapter on a resource has one of three ends: it is stored, it is
discarded because a mandatory condition is missing or not known, or it is refused.  All else is bookkeeping:
resources are created, deleted, read and searched, and given conditions of their own, which are merged just
as reports are.
-/

namespace StatusBoard

/-! ## Paging -/

/-- The sizes of pages. -/
structure Paging where
  defaultPageSize : UInt32
  maxPageSize : UInt32
  deriving DecidableEq, Repr, Inhabited

/-- The page that a caller gets: the first by default, of a size within the limits. -/
def Paging.resolve (p : Paging) (page pageSize : Option UInt32) : PageRequest :=
  .clamped (page.getD 1) (min (max (pageSize.getD p.defaultPageSize) 1) (max p.maxPageSize 1))

/-! ## Requests -/

/-- What a caller may ask for. -/
inductive Request where
  | create (kind : String) (new : NewResource)
  | get (resource : ResourceRef)
  | delete (resource : ResourceRef)
  | setConditions (resource : ResourceRef) (generation : Int64) (conditions : List ConditionInput)
  | report (resource : ResourceRef) (report : Report)
  | getStatus (key : StatusKey)
  | listStatuses (resource : ResourceRef) (page pageSize : Option UInt32)
  | search (kind filter : String) (page pageSize : Option UInt32)
  deriving Repr, Inhabited

/-- What came of a report. -/
inductive ReportOutcome where
  | stored (status : AdapterStatus) (created : Bool)
  | discarded (reason : Rejection)
  deriving Repr, Inhabited

/-- What a caller is answered. -/
inductive Response where
  | resource (resource : Resource)
  | deleted
  | outcome (outcome : ReportOutcome)
  | status (status : AdapterStatus)
  | statuses (page : Page AdapterStatus)
  | resources (page : Page Resource)
  deriving Repr, Inhabited

/-- What a request meets: the time, a fresh identity for the row that it may add, its deadline, and the
other writers. -/
structure Circumstances where
  now : Instant
  freshId : Uuid
  cancel : Cancellation := .never
  contention : Nat → Contention := fun _ => .clear

/-- The store after a request, and what the caller is answered. -/
structure Reply (α : Type) where
  store : Store
  result : Except ServiceError α

/-- The board: the kinds that it knows, and the sizes of its pages. -/
structure Board where
  kinds : KindRegistry
  paging : Paging
  deriving DecidableEq, Repr, Inhabited

namespace Settings

/-- The board of settings. -/
def board (s : Settings) : Board :=
  ⟨s.kinds, ⟨s.defaultPageSize, s.maxPageSize⟩⟩

/-- Whether requests are cancelled: with no time at all, before they start. -/
def cancellation (s : Settings) : Cancellation :=
  if s.requestTimeoutMs = 0 then .before else .never

end Settings

/-! ## Reports -/

/-- What a report writes over what is stored.  It is stamped no earlier than the last report. -/
def Report.plan (r : Report) (spec : KindSpec) (now : Instant) (existing : Option StatusRecord) : Plan :=
  match passesMandatory r.conditions spec.mandatory with
  | .error _ => .skip
  | .ok () =>
    let now := match existing with
      | some e => Instant.latest now e.lastReportTime
      | none => now
    match r.document now with
    | .error _ => .skip
    | .ok incoming =>
      let merged := incoming.mergedOverStored (existing.map (·.conditions)) now
      .write {
        observedGeneration := r.observedGeneration
        conditions := merged.document.render
        data := r.data
        metadata := r.metadata
        now }

namespace Board

/-- The kind is one that the board knows. -/
def resolve (b : Board) (kind : String) : Except ServiceError KindSpec :=
  (b.kinds.resolve kind).mapError .invalid

/-- The status of a record, which every status that was stored here has. -/
def readStatus (r : StatusRecord) : Except ServiceError AdapterStatus :=
  r.toStatus.mapError .unreadableStatus

/-- What a report comes to, given what came of its plan. -/
def reportOutcome (spec : KindSpec) (r : Report) : UpsertOutcome → Except ServiceError ReportOutcome
  | .inserted record => do return .stored (← readStatus record) true
  | .updated record => do return .stored (← readStatus record) false
  | .skipped => .ok (.discarded (shortfall r.conditions spec.mandatory))

/-- The answer of a store operation as callers see it. -/
def reply {α β : Type} (answer : Answer α) (convert : α → Except ServiceError β) : Reply β :=
  ⟨answer.store, (answer.result.mapError ServiceError.ofStore).bind convert⟩

/-- Nothing is changed, and the caller is told why. -/
def refuse {α : Type} (s : Store) (e : ServiceError) : Reply α :=
  ⟨s, .error e⟩

/-- Takes in a report on a resource. -/
def report (b : Board) (c : Circumstances) (s : Store) (resource : ResourceRef) (r : Report) :
    Reply ReportOutcome :=
  match b.resolve resource.kind, r.validate with
  | .error e, _ => refuse s e
  | .ok _, .error e => refuse s (.invalid e)
  | .ok spec, .ok () =>
    let answer := s.upsertStatus c.cancel (.of resource r.adapter) c.freshId
      (fun _ existing => ⟨r.plan spec c.now existing, false⟩) c.contention
    reply answer.toAnswer (reportOutcome spec r)

/-! ## Resources -/

/-- Creates a resource. -/
def create (b : Board) (c : Circumstances) (s : Store) (kind : String) (new : NewResource) :
    Reply Resource :=
  match b.resolve kind, new.validate with
  | .error e, _ => refuse s e
  | .ok _, .error e => refuse s (.invalid e)
  | .ok _, .ok () => reply (s.createResource c.cancel c.freshId kind new c.now) .ok

/-- Deletes a resource and its statuses. -/
def delete (b : Board) (c : Circumstances) (s : Store) (resource : ResourceRef) : Reply Unit :=
  match b.resolve resource.kind with
  | .error e => refuse s e
  | .ok _ => reply (s.deleteResource c.cancel resource c.now) .ok

/-- The conditions of a resource as a whole, before they are merged. -/
def incomingConditions (b : Board) (c : Circumstances) (resource : ResourceRef) (generation : Int64)
    (conditions : List ConditionInput) : Except ServiceError Document := do
  let _ ← b.resolve resource.kind
  (checkResourceConditions conditions).mapError .invalid
  (Document.ofInputs conditions generation c.now).mapError .invalid

/-- Sets the conditions of a resource as a whole. -/
def setConditions (b : Board) (c : Circumstances) (s : Store) (resource : ResourceRef) (generation : Int64)
    (conditions : List ConditionInput) : Reply Resource :=
  match b.incomingConditions c resource generation conditions with
  | .error e => refuse s e
  | .ok incoming =>
    let replace (raw : String) : Store.Replacement :=
      ⟨(incoming.mergedOverStored (some raw) c.now).document.render, false⟩
    reply (s.updateConditions c.cancel resource c.now replace) .ok

/-! ## Reading -/

/-- A resource. -/
def get (b : Board) (c : Circumstances) (s : Store) (resource : ResourceRef) :
    Except ServiceError Resource := do
  let _ ← b.resolve resource.kind
  match ← (s.getResource c.cancel resource).mapError .ofStore with
  | some found => return found
  | none => throw (.notFound (.resource resource))

/-- What an adapter says about a resource. -/
def getStatus (b : Board) (c : Circumstances) (s : Store) (key : StatusKey) :
    Except ServiceError AdapterStatus := do
  let _ ← b.resolve key.resourceType
  match ← (s.getStatus c.cancel key).mapError .ofStore with
  | some record => readStatus record
  | none => throw (.notFound (.status key))

/-- What adapters say about a resource. -/
def listStatuses (b : Board) (c : Circumstances) (s : Store) (resource : ResourceRef)
    (page pageSize : Option UInt32) : Except ServiceError (Page AdapterStatus) := do
  let _ ← b.resolve resource.kind
  if (← (s.getResource c.cancel resource).mapError .ofStore).isNone then
    throw (.notFound (.resource resource))
  let found ← (s.listStatuses c.cancel resource (b.paging.resolve page pageSize)).mapError .ofStore
  found.mapM readStatus

/-- The resources of a kind that a filter shows. -/
def search (b : Board) (c : Circumstances) (s : Store) (kind filter : String)
    (page pageSize : Option UInt32) : Except ServiceError (Page Resource) := do
  let _ ← b.resolve kind
  let query ← (Query.ofText filter).mapError .filter
  (s.search c.cancel kind query (b.paging.resolve page pageSize)).mapError .ofStore

/-! ## All requests -/

/-- Answers a request. -/
def handle (b : Board) (c : Circumstances) (s : Store) : Request → Reply Response
  | .create kind new => wrap (b.create c s kind new) .resource
  | .get resource => ⟨s, (b.get c s resource).map .resource⟩
  | .delete resource => wrap (b.delete c s resource) fun _ => .deleted
  | .setConditions resource generation conditions =>
    wrap (b.setConditions c s resource generation conditions) .resource
  | .report resource r => wrap (b.report c s resource r) .outcome
  | .getStatus key => ⟨s, (b.getStatus c s key).map .status⟩
  | .listStatuses resource page pageSize => ⟨s, (b.listStatuses c s resource page pageSize).map .statuses⟩
  | .search kind filter page pageSize => ⟨s, (b.search c s kind filter page pageSize).map .resources⟩
where
  wrap {α : Type} (r : Reply α) (f : α → Response) : Reply Response := ⟨r.store, r.result.map f⟩

end Board

/-! ## Writing answers -/

/-- A page as it is written. -/
def Page.write {α : Type} (item : α → Json.Value) (p : Page α) : Json.Value :=
  .object [("items", .array (p.items.map item)), ("page", Json.writeNat p.page.toNat),
           ("pageSize", Json.writeNat p.pageSize.toNat), ("total", Json.writeNat p.total)]

/-- What came of a report as it is written. -/
def ReportOutcome.write : ReportOutcome → Json.Value
  | stored status created =>
    .object [("outcome", .text "stored"), ("status", status.write), ("created", .bool created)]
  | discarded reason => .object [("outcome", .text "discarded"), ("reason", reason.write)]

/-- An answer as it is written. -/
def Response.write : Response → Json.Value
  | resource r => r.write
  | deleted => .null
  | outcome o => o.write
  | status s => s.write
  | statuses p => p.write AdapterStatus.write
  | resources p => p.write Resource.write

end StatusBoard

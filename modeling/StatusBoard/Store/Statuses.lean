import StatusBoard.Store.Decoding
import StatusBoard.Store.Page
import StatusBoard.Store.Transaction
set_option autoImplicit false

/-!
# Store: operations on adapter statuses

The status of a key is written by a plan: it is shown what is stored, if anything is, and says what to write.
If another writer adds a row of the key at the last moment, the insertion fails, and the plan is asked once
more, now with that row; it is asked three times at most.
-/

namespace StatusBoard

/-- What a plan says. -/
inductive Plan where
  | write (write : StatusWrite)
  /-- Everything stays as it is. -/
  | skip
  deriving Repr, Inhabited

/-- What a plan says, and whether it cancelled the operation. -/
structure Planned where
  plan : Plan
  cancels : Bool := false
  deriving Repr, Inhabited

/-- Says what to write, given what it was shown before and what is stored now. -/
abbrev Planner := (earlier : List (Option StatusRecord)) → (existing : Option StatusRecord) → Planned

/-- What happens when a row is about to be inserted. -/
inductive Contention where
  | clear
  /-- The insertion fails for a reason; another writer may have added a row. -/
  | lost (reason : String) (winner : Option StatusRow)
  deriving Repr, Inhabited

/-- What came of a plan. -/
inductive UpsertOutcome where
  | inserted (record : StatusRecord)
  | updated (record : StatusRecord)
  | skipped
  deriving Repr, Inhabited

/-- What the asking of a plan comes to. -/
inductive UpsertEnd where
  | written (draft : Store) (inserted : Bool)
  | skipped
  deriving Repr, Inhabited

/-- What the plan was shown, whether it cancelled the operation, and what came of it. -/
structure UpsertRun where
  calls : List (Option StatusRecord)
  cancelled : Bool
  ending : Except StoreError UpsertEnd

/-- An answer, with what the plan was shown call by call. -/
structure UpsertAnswer extends Answer UpsertOutcome where
  calls : List (Option StatusRecord)

namespace Store

/-! ## Reading -/

/-- The status of a key, if there is one. -/
def getStatus (s : Store) (cancel : Cancellation) (key : StatusKey) :
    Except StoreError (Option StatusRecord) := do
  cancel.checkStart
  match s.findStatus? key with
  | none => return none
  | some row => return some (← StatusRecord.ofRow row)

/-- The status of a key that is about to be overwritten. -/
def getStatusForUpdate (s : Store) (key : StatusKey) : Except StoreError (Option StatusRecord) :=
  match s.findStatus? key with
  | none => .ok none
  | some row => do return some (← StatusRecord.ofRowForUpdate row)

/-- The statuses of a resource in byte order of their adapters. -/
def listStatuses (s : Store) (cancel : Cancellation) (resource : ResourceRef) (page : PageRequest) :
    Except StoreError (Page StatusRecord) := do
  cancel.checkStart
  let rows := s.statuses.filter (·.isAbout resource)
  Page.of page StatusRecord.ofRow (rows.mergeSort fun a b => Cell.precedes a.adapter b.adapter)

/-! ## Writing -/

/-- The row of an identity is overwritten, if it is live. -/
def updateStatus (s : Store) (id : Uuid) (w : StatusWrite) : Except StoreError Store :=
  let isTarget (r : StatusRow) : Bool := r.id = .text id.toText && r.isLive
  if s.statuses.any isTarget then
    .ok { s with statuses := s.statuses.map fun r => if isTarget r then w.applyTo r else r }
  else .error (.notFound (.statusRow id))

/-- A row is added, unless a row has its identity or a live row its key. -/
def insertStatus (s : Store) (row : StatusRow) : Except String Store :=
  if s.statuses.any (·.id = row.id) then .error "UNIQUE constraint failed: adapter_statuses.id"
  else if s.statuses.any fun r => r.isLive && r.resourceType = row.resourceType &&
      r.resourceId = row.resourceId && r.adapter = row.adapter then
    .error ("UNIQUE constraint failed: adapter_statuses.resource_type, adapter_statuses.resource_id, " ++
      "adapter_statuses.adapter")
  else .ok { s with statuses := s.statuses ++ [row] }

/-- The store with the row of another writer, if it added one. -/
def withWinner (s : Store) (winner : Option StatusRow) : Store :=
  { s with statuses := s.statuses ++ winner.toList }

/-- Tries to add a row: the store afterwards, and the reason if the row was not added. -/
def tryInsert (s : Store) (row : StatusRow) (contention : Contention) : Store × Option String :=
  match contention with
  | .lost reason winner => (s.withWinner winner, some reason)
  | .clear =>
    match s.insertStatus row with
    | .ok draft => (draft, none)
    | .error reason => (s, some reason)

/-- The number of times that a plan is asked. -/
def attempts : Nat := 3

/-- Asks a plan, and asks it again up to `left` times for as long as insertions fail. -/
def runPlan (key : StatusKey) (id : Uuid) (planner : Planner) (contention : Nat → Contention) (left : Nat)
    (s : Store) (earlier : List (Option StatusRecord)) (cancelled : Bool)
    (existing : Option StatusRecord) : UpsertRun :=
  let planned := planner earlier existing
  let calls := earlier ++ [existing]
  let cancelled := cancelled || planned.cancels
  match planned.plan, existing with
  | .skip, _ => ⟨calls, cancelled, .ok .skipped⟩
  | .write w, some previous =>
    ⟨calls, cancelled, (s.updateStatus previous.id w).map fun draft => .written draft false⟩
  | .write w, none =>
    match s.tryInsert (w.toRow id key) (contention earlier.length), left with
    | (draft, none), _ => ⟨calls, cancelled, .ok (.written draft true)⟩
    | (_, some reason), 0 => ⟨calls, cancelled, .error (.database (.constraint reason))⟩
    | (draft, some _), left + 1 =>
      match draft.getStatusForUpdate key with
      | .error e => ⟨calls, cancelled, .error e⟩
      | .ok existing => runPlan key id planner contention left draft calls cancelled existing

/-- Ends an upsert: what was written is read back before it counts. -/
def endUpsert (s : Store) (cancel : Cancellation) (key : StatusKey) (run : UpsertRun) :
    Except StoreError (Store × UpsertOutcome) := do
  match ← run.ending with
  | .skipped => return (s, .skipped)
  | .written draft inserted =>
    match ← draft.getStatus .never key with
    | none => throw (.notFound (.status key))
    | some record =>
      cancel.checkEnd run.cancelled
      return (draft, if inserted then .inserted record else .updated record)

/-- Starts an upsert: the owner of the key has to be live; what is stored is read. -/
def startUpsert (s : Store) (cancel : Cancellation) (key : StatusKey) :
    Except StoreError (Option StatusRecord) := do
  cancel.checkStart
  if (s.findResource? key.owner).isNone then throw (.notFound (.resource key.owner))
  s.getStatusForUpdate key

/-- Writes the status of a key as a plan says; a new row gets a fresh identity. -/
def upsertStatus (s : Store) (cancel : Cancellation) (key : StatusKey) (id : Uuid) (planner : Planner)
    (contention : Nat → Contention) : UpsertAnswer :=
  match s.startUpsert cancel key with
  | .error e => { s.commit (.error e) with calls := [] }
  | .ok existing =>
    let run := runPlan key id planner contention (attempts - 1) s [] false existing
    { s.commit (s.endUpsert cancel key run) with calls := run.calls }

end Store
end StatusBoard

import StatusBoard.Proofs.Condition.Merge
import StatusBoard.Proofs.Store.Resources
import StatusBoard.Service.Board
set_option autoImplicit false

/-!
# Service: what a call can come to

A call is a request with the time and the identity that it meets.  `Board.Ends` lists all the
ways in which a call can end: what it leaves in the store, what it answers, and what must have
held of the store for that.
-/

namespace StatusBoard

/-! ## Calls -/

/-- A request and what it meets.  An operation has the store to itself, so nobody
else writes meanwhile. -/
structure Call where
  now : Instant
  freshId : Uuid
  cancel : Cancellation
  request : Request
  deriving Repr, Inhabited

namespace Call

/-- What the request meets. -/
def circumstances (c : Call) : Circumstances where
  now := c.now
  freshId := c.freshId
  cancel := c.cancel

@[simp] theorem circumstances_now (c : Call) : c.circumstances.now = c.now := rfl

@[simp] theorem circumstances_freshId (c : Call) : c.circumstances.freshId = c.freshId := rfl

@[simp] theorem circumstances_cancel (c : Call) : c.circumstances.cancel = c.cancel := rfl

end Call

/-- The answer to a call. -/
def Board.answer (b : Board) (s : Store) (c : Call) : Reply Response :=
  b.handle c.circumstances s c.request

/-- A request that only looks. -/
def Request.isRead : Request → Bool
  | .get _ | .getStatus _ | .listStatuses .. | .search .. => true
  | .create .. | .delete _ | .setConditions .. | .report .. => false

/-! ## What is written -/

namespace Report

/-- The time that a report is stamped with: now, but no earlier than the last report. -/
def stamp (now : Instant) (existing : Option StatusRecord) : Instant :=
  match existing with
  | some e => Instant.latest now e.lastReportTime
  | none => now

/-- What a report that is stored writes. -/
def writeOver (r : Report) (now : Instant) (existing : Option StatusRecord) : StatusWrite where
  observedGeneration := r.observedGeneration
  conditions :=
    ((Document.sent r.conditions r.observedGeneration (stamp now existing)).mergedOver
      (Document.previousOf (existing.map (·.conditions))) (stamp now existing)).render
  data := r.data
  metadata := r.metadata
  now := stamp now existing

/-- A report is stored if it passes the gate and makes a document. -/
theorem plan_eq_write_iff {r : Report} {spec : KindSpec} {now : Instant}
    {existing : Option StatusRecord} {w : StatusWrite} :
    r.plan spec now existing = .write w ↔
      passesMandatory r.conditions spec.mandatory = .ok () ∧ (r.conditions.map (·.type)).Nodup ∧
        w = r.writeOver now existing := by
  unfold plan
  cases hgate : passesMandatory r.conditions spec.mandatory with
  | error rejection => simp
  | ok passed =>
      simp only
      split
      · rename_i hdocument
        have hrepeated : ¬ (r.conditions.map (·.type)).Nodup := by
          intro hnodup
          rw [document, Document.ofInputs_of_nodup hnodup] at hdocument
          cases hdocument
        simp [hrepeated]
      · rename_i hdocument
        obtain ⟨hnodup, rfl⟩ := Document.ofInputs_eq_ok_iff.mp hdocument
        simp only [Document.document_mergedOverStored, Plan.write.injEq, hnodup, true_and]
        exact eq_comm

/-- The conditions that a stored report writes are read back. -/
theorem parse_writeOver {r : Report} (h : (r.conditions.map (·.type)).Nodup) (now : Instant)
    (existing : Option StatusRecord) :
    Document.parse (r.writeOver now existing).conditions =
      .ok ((Document.sent r.conditions r.observedGeneration (stamp now existing)).mergedOver
        (Document.previousOf (existing.map (·.conditions))) (stamp now existing)) :=
  Document.parse_render_mergedOver (Document.hasDistinctTypes_sent h _ _) _ _

end Report

/-- The conditions that a resource has when some are set over a text. -/
def Document.setOver (conditions : List ConditionInput) (generation : Int64) (now : Instant)
    (raw : String) : Document :=
  (Document.sent conditions generation now).mergedOver (Document.previousOf (some raw)) now

namespace Board

/-- The plan by which a report on a resource of a kind is written. -/
def planner (spec : KindSpec) (r : Report) (now : Instant) : Planner :=
  fun _ existing => ⟨r.plan spec now existing, false⟩

theorem planner_eq_write_iff {spec : KindSpec} {r : Report} {now : Instant}
    {earlier : List (Option StatusRecord)} {existing : Option StatusRecord} {w : StatusWrite} :
    (planner spec r now earlier existing).plan = .write w ↔
      passesMandatory r.conditions spec.mandatory = .ok () ∧ (r.conditions.map (·.type)).Nodup ∧
        w = r.writeOver now existing :=
  Report.plan_eq_write_iff

theorem planner_of_closed {spec : KindSpec} {r : Report}
    (h : passesMandatory r.conditions spec.mandatory ≠ .ok ())
    (now : Instant) (earlier : List (Option StatusRecord)) (existing : Option StatusRecord) :
    planner spec r now earlier existing = ⟨.skip, false⟩ := by
  unfold planner Report.plan
  cases hgate : passesMandatory r.conditions spec.mandatory with
  | error reason => rfl
  | ok passed => exact absurd hgate h

theorem planner_of_open {spec : KindSpec} {r : Report}
    (h : passesMandatory r.conditions spec.mandatory = .ok ())
    (hnodup : (r.conditions.map (·.type)).Nodup)
    (now : Instant) (earlier : List (Option StatusRecord)) (existing : Option StatusRecord) :
    planner spec r now earlier existing = ⟨.write (r.writeOver now existing), false⟩ := by
  rw [planner, Report.plan_eq_write_iff.mpr ⟨h, hnodup, rfl⟩]

/-- All the ways in which a call can end. -/
inductive Ends (b : Board) (c : Call) (s : Store) : Reply Response → Prop where
  | failed (e : ServiceError) : Ends b c s ⟨s, .error e⟩
  | discarded (reason : Rejection) : Ends b c s ⟨s, .ok (.outcome (.discarded reason))⟩
  | read (response : Response) (hread : c.request.isRead = true) : Ends b c s ⟨s, .ok response⟩
  | created {kind : String} {new : NewResource} {created : Resource}
      (hrequest : c.request = .create kind new) (hvalid : new.validate = .ok ())
      (hfree : s.isTaken (new.toRow c.freshId kind c.now) = false)
      (hread : Resource.ofRow (new.toRow c.freshId kind c.now) = .ok created)
      (hkind : ∃ spec, b.resolve kind = .ok spec) :
      Ends b c s ⟨s.withResource (new.toRow c.freshId kind c.now), .ok (.resource created)⟩
  | deleted {resource : ResourceRef} (hrequest : c.request = .delete resource)
      (hlive : (s.findResource? resource).isSome = true) :
      Ends b c s ⟨s.markDeleted resource c.now, .ok .deleted⟩
  | conditioned {resource : ResourceRef} {generation : Int64} {conditions : List ConditionInput}
      {row : ResourceRow} {raw : String} {updated : Resource}
      (hrequest : c.request = .setConditions resource generation conditions)
      (hnodup : (conditions.map (·.type)).Nodup)
      (hfind : s.findResource? resource = some row) (htext : row.statusConditions = .text raw)
      (hread : Resource.ofRow (Store.withConditions
        (Document.setOver conditions generation c.now raw).render c.now row) = .ok updated)
      (hcheck : checkResourceConditions conditions = .ok ()) :
      Ends b c s
        ⟨s.setConditions resource (Document.setOver conditions generation c.now raw).render c.now,
          .ok (.resource updated)⟩
  | stored {resource : ResourceRef} {r : Report} {spec : KindSpec} {draft : Store} {inserted : Bool}
      {row : StatusRow} {record : StatusRecord} {status : AdapterStatus}
      (hrequest : c.request = .report resource r)
      (howner : (s.findResource? resource).isSome = true)
      (hwrites :
        Store.Writes (planner spec r c.now) (.of resource r.adapter) c.freshId s draft inserted)
      (hfind : draft.findStatus? (.of resource r.adapter) = some row)
      (hread : StatusRecord.ofRow row = .ok record)
      (hstatus : record.toStatus = .ok status)
      (hspec : b.resolve resource.kind = .ok spec) (hvalid : r.validate = .ok ()) :
      Ends b c s ⟨draft, .ok (.outcome (.stored status inserted))⟩
  | unreadable {resource : ResourceRef} {r : Report} {spec : KindSpec} {draft : Store}
      {inserted : Bool} {row : StatusRow} {record : StatusRecord} {e : DocumentError}
      (hrequest : c.request = .report resource r) (hspec : b.resolve resource.kind = .ok spec)
      (hvalid : r.validate = .ok ()) (hcancel : c.cancel = .never)
      (howner : (s.findResource? resource).isSome = true)
      (hwrites :
        Store.Writes (planner spec r c.now) (.of resource r.adapter) c.freshId s draft inserted)
      (hfind : draft.findStatus? (.of resource r.adapter) = some row)
      (hread : StatusRecord.ofRow row = .ok record)
      (hunreadable : Document.parse record.conditions = .error e) :
      Ends b c s ⟨draft, .error (.unreadableStatus e)⟩

/-! ## Every call ends in one of these ways -/

theorem reportOutcome_writtenOutcome (spec : KindSpec) (r : Report) (inserted : Bool)
    (record : StatusRecord) :
    reportOutcome spec r (Store.writtenOutcome inserted record) =
      (record.toStatus.mapError ServiceError.unreadableStatus).map
        fun status => .stored status inserted := by
  cases inserted <;>
    simp only [Store.writtenOutcome, reportOutcome, readStatus, if_true,
      Bool.false_eq_true, if_false] <;>
    cases record.toStatus <;> rfl

/-- A report that nothing is wrong with is answered with what its upsert comes to. -/
theorem answer_report {b : Board} {c : Call} {resource : ResourceRef} {r : Report} {spec : KindSpec}
    (s : Store) (hrequest : c.request = .report resource r)
    (hspec : b.resolve resource.kind = .ok spec) (hvalid : r.validate = .ok ()) :
    b.answer s c =
      handle.wrap (reply (s.upsertStatus c.cancel (.of resource r.adapter) c.freshId
        (planner spec r c.now) fun _ => .clear).toAnswer (reportOutcome spec r)) .outcome := by
  unfold answer
  rw [hrequest]
  simp only [handle, report, hspec, hvalid]
  rfl

/-- A report on a kind that is not known, or one that something is wrong with, changes nothing. -/
theorem answer_report_of_invalid {b : Board} {c : Call} {resource : ResourceRef} {r : Report}
    {e : ValidationError} (s : Store) (hrequest : c.request = .report resource r)
    (h : b.kinds.resolve resource.kind = .error e ∨
      (∃ spec, b.kinds.resolve resource.kind = .ok spec) ∧ r.validate = .error e) :
    b.answer s c = ⟨s, .error (.invalid e)⟩ := by
  unfold answer
  rw [hrequest]
  rcases h with hspec | ⟨⟨spec, hspec⟩, hvalid⟩
  · simp only [handle, report, resolve, hspec]
    rfl
  · simp only [handle, report, resolve, hspec, hvalid]
    rfl

theorem ends_report (b : Board) (c : Call) (s : Store) {resource : ResourceRef} {r : Report}
    (hrequest : c.request = .report resource r) : b.Ends c s (b.answer s c) := by
  cases hkind : b.kinds.resolve resource.kind with
  | error e =>
      rw [answer_report_of_invalid s hrequest (.inl hkind)]
      exact .failed (.invalid e)
  | ok spec =>
      have hspec : b.resolve resource.kind = .ok spec := mapError_eq_ok_iff.mpr hkind
      cases hvalid : r.validate with
      | error e =>
          rw [answer_report_of_invalid s hrequest (.inr ⟨⟨spec, hkind⟩, hvalid⟩)]
          exact .failed (.invalid e)
      | ok valid =>
          rw [answer_report s hrequest hspec hvalid]
          obtain ⟨e, hanswer⟩ | hanswer | ⟨draft, inserted, record, hanswer, howner, hcancel,
              hwrites, row, hfind, hread⟩ :=
            s.upsertStatus_cases c.cancel c.freshId (planner spec r c.now)
              (Store.contests_clear (.of resource r.adapter))
          · rw [hanswer]
            exact .failed (.ofStore e)
          · rw [hanswer]
            exact .discarded (shortfall r.conditions spec.mandatory)
          · obtain ⟨base, hjoined, hwrites⟩ := hwrites
            cases hjoined.eq_of_clear
            rw [hanswer]
            simp only [handle.wrap, reply, mapError_ok, Except.bind,
              reportOutcome_writtenOutcome]
            cases hstatus : record.toStatus with
            | error e =>
                exact .unreadable hrequest hspec hvalid hcancel howner hwrites hfind hread
                  (StatusRecord.toStatus_eq_error_iff.mp hstatus)
            | ok status => exact .stored hrequest howner hwrites hfind hread hstatus hspec hvalid

theorem ends_create (b : Board) (c : Call) (s : Store) {kind : String} {new : NewResource}
    (hrequest : c.request = .create kind new) : b.Ends c s (b.answer s c) := by
  unfold answer
  rw [hrequest]
  simp only [handle, create]
  cases hspec : b.resolve kind with
  | error e => exact .failed e
  | ok spec =>
      cases hvalid : new.validate with
      | error e => exact .failed (.invalid e)
      | ok valid =>
          change b.Ends c s
            (handle.wrap (reply (s.createResource c.cancel c.freshId kind new c.now) .ok) .resource)
          obtain ⟨e, hanswer⟩ | ⟨created, hanswer, hfree, hread⟩ :=
            s.createResource_cases c.cancel c.freshId kind new c.now
          · rw [hanswer]
            exact .failed (.ofStore e)
          · rw [hanswer]
            exact .created hrequest hvalid hfree hread ⟨spec, hspec⟩

theorem ends_delete (b : Board) (c : Call) (s : Store) {resource : ResourceRef}
    (hrequest : c.request = .delete resource) : b.Ends c s (b.answer s c) := by
  unfold answer
  rw [hrequest]
  simp only [handle, delete]
  cases hspec : b.resolve resource.kind with
  | error e => exact .failed e
  | ok spec =>
      change b.Ends c s
        (handle.wrap (reply (s.deleteResource c.cancel resource c.now) .ok) fun _ => .deleted)
      obtain ⟨e, hanswer⟩ | ⟨hanswer, hlive⟩ := s.deleteResource_cases c.cancel resource c.now
      · rw [hanswer]
        exact .failed (.ofStore e)
      · rw [hanswer]
        exact .deleted hrequest hlive

theorem incomingConditions_eq_ok {b : Board} {c : Circumstances} {resource : ResourceRef}
    {generation : Int64} {conditions : List ConditionInput} {incoming : Document}
    (h : b.incomingConditions c resource generation conditions = .ok incoming) :
    checkResourceConditions conditions = .ok () ∧ (conditions.map (·.type)).Nodup ∧
      incoming = .sent conditions generation c.now := by
  unfold incomingConditions at h
  obtain ⟨-, -, h⟩ := bind_eq_ok_iff.mp h
  obtain ⟨⟨⟩, hcheck, h⟩ := bind_eq_ok_iff.mp h
  exact ⟨mapError_eq_ok_iff.mp hcheck, Document.ofInputs_eq_ok_iff.mp (mapError_eq_ok_iff.mp h)⟩

theorem ends_setConditions (b : Board) (c : Call) (s : Store) {resource : ResourceRef}
    {generation : Int64} {conditions : List ConditionInput}
    (hrequest : c.request = .setConditions resource generation conditions) :
    b.Ends c s (b.answer s c) := by
  unfold answer
  rw [hrequest]
  simp only [handle, setConditions]
  cases hincoming : b.incomingConditions c.circumstances resource generation conditions with
  | error e => exact .failed e
  | ok incoming =>
      obtain ⟨hcheck, hnodup, rfl⟩ := incomingConditions_eq_ok hincoming
      simp only [Document.document_mergedOverStored]
      change b.Ends c s (handle.wrap (reply (s.updateConditions c.cancel resource c.now fun raw =>
        ⟨(Document.setOver conditions generation c.now raw).render, false⟩) .ok) .resource)
      obtain ⟨e, hanswer⟩ | ⟨row, raw, updated, hanswer, hfind, htext, hread⟩ :=
        s.updateConditions_cases c.cancel resource c.now fun raw =>
          ⟨(Document.setOver conditions generation c.now raw).render, false⟩
      · rw [hanswer]
        exact .failed (.ofStore e)
      · rw [hanswer]
        exact .conditioned hrequest hnodup hfind htext hread hcheck

/-- A read answers from the store and leaves it alone. -/
theorem ends_of_read (b : Board) (c : Call) (s : Store) (hread : c.request.isRead = true)
    (result : Except ServiceError Response) : b.Ends c s ⟨s, result⟩ := by
  cases result with
  | error e => exact .failed e
  | ok response => exact .read response hread

/-- Every call ends in one of the ways that are listed. -/
theorem ends_answer (b : Board) (c : Call) (s : Store) : b.Ends c s (b.answer s c) := by
  cases hrequest : c.request with
  | create kind new => exact b.ends_create c s hrequest
  | delete resource => exact b.ends_delete c s hrequest
  | setConditions resource generation conditions => exact b.ends_setConditions c s hrequest
  | report resource r => exact b.ends_report c s hrequest
  | get _ | getStatus _ | listStatuses _ _ _ | search _ _ _ _ =>
      have hread : c.request.isRead = true := by rw [hrequest]; rfl
      have hanswer := b.ends_of_read c s hread (b.answer s c).result
      unfold answer at hanswer ⊢
      rw [hrequest] at hanswer ⊢
      exact hanswer

/-! ## What a call has ended in -/

section

variable {b : Board} {c : Call} {s : Store} {reply : Reply Response}

/-- A report that was stored is in the row of its key, and is answered with what is read of that. -/
theorem Ends.stored_of_result (h : b.Ends c s reply) {resource : ResourceRef} {r : Report}
    (hrequest : c.request = .report resource r) {status : AdapterStatus} {isNew : Bool}
    (hresult : reply.result = .ok (.outcome (.stored status isNew))) :
    ∃ spec row record, b.resolve resource.kind = .ok spec ∧ r.validate = .ok () ∧
      (s.findResource? resource).isSome = true ∧
      Store.Writes (planner spec r c.now) (.of resource r.adapter) c.freshId s reply.store isNew ∧
      reply.store.findStatus? (.of resource r.adapter) = some row ∧
      StatusRecord.ofRow row = .ok record ∧ record.toStatus = .ok status := by
  cases h with
  | @stored resource' r' spec draft inserted row record status' hrequest' howner hwrites hfind hread
      hstatus hspec hvalid =>
      cases hrequest.symm.trans hrequest'
      cases hresult
      exact ⟨spec, row, record, hspec, hvalid, howner, hwrites, hfind, hread, hstatus⟩
  | read response hread =>
      rw [hrequest] at hread
      cases hread
  | failed _ | discarded _ | created | deleted | conditioned | unreadable => cases hresult

/-- A resource that was created has a row of its own. -/
theorem Ends.created_of_result (h : b.Ends c s reply) {kind : String} {new : NewResource}
    (hrequest : c.request = .create kind new) {x : Resource}
    (hresult : reply.result = .ok (.resource x)) :
    (∃ spec, b.resolve kind = .ok spec) ∧ new.validate = .ok () ∧
      s.isTaken (new.toRow c.freshId kind c.now) = false ∧
      reply.store = s.withResource (new.toRow c.freshId kind c.now) ∧
      Resource.ofRow (new.toRow c.freshId kind c.now) = .ok x := by
  cases h with
  | created hrequest' hvalid hfree hread hkind =>
      cases hrequest.symm.trans hrequest'
      cases hresult
      exact ⟨hkind, hvalid, hfree, rfl, hread⟩
  | read response hread =>
      rw [hrequest] at hread
      cases hread
  | conditioned hrequest' _ _ _ _ _ => cases hrequest.symm.trans hrequest'
  | failed _ | discarded _ | deleted | stored | unreadable => cases hresult

/-- Conditions that were set are in the row of their resource, over those that it had. -/
theorem Ends.conditioned_of_result (h : b.Ends c s reply) {resource : ResourceRef}
    {generation : Int64} {conditions : List ConditionInput}
    (hrequest : c.request = .setConditions resource generation conditions) {x : Resource}
    (hresult : reply.result = .ok (.resource x)) :
    ∃ row raw, (conditions.map (·.type)).Nodup ∧ checkResourceConditions conditions = .ok () ∧
      s.findResource? resource = some row ∧ row.statusConditions = .text raw ∧
      reply.store =
        s.setConditions resource (Document.setOver conditions generation c.now raw).render c.now ∧
      Resource.ofRow (Store.withConditions
        (Document.setOver conditions generation c.now raw).render c.now row) = .ok x := by
  cases h with
  | @conditioned resource' generation' conditions' row raw updated hrequest' hnodup hfind htext hread
      hcheck =>
      cases hrequest.symm.trans hrequest'
      cases hresult
      exact ⟨row, raw, hnodup, hcheck, hfind, htext, rfl, hread⟩
  | read response hread =>
      rw [hrequest] at hread
      cases hread
  | created hrequest' _ _ _ _ => cases hrequest.symm.trans hrequest'
  | failed _ | discarded _ | deleted | stored | unreadable => cases hresult

end

end Board
end StatusBoard

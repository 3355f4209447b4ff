import StatusBoard.Proofs.Service.Deletion
import StatusBoard.Proofs.Service.Lookup
import StatusBoard.Proofs.Store.Page
set_option autoImplicit false

/-!
# Service: whose fault errors are

Whatever stands in the tables was written by the board, and what the board writes it can read.  So
no call fails for what is stored.  Callers are told that their request is not right, that something
is not there, or that a name is taken, and the last only of a name that a live resource has.
-/

namespace StatusBoard

/-! ## Calls -/

namespace Request

/-- The kind that a request names. -/
def kind : Request → String
  | .create kind _ | .search kind _ _ _ => kind
  | .get resource | .delete resource | .setConditions resource _ _ | .report resource _
  | .listStatuses resource _ _ => resource.kind
  | .getStatus key => key.resourceType

/-- The request can be received: what it carries is such as is read from a text. -/
def IsReceivable : Request → Prop
  | .create _ new => new.IsReceivable
  | .report _ r => r.IsReceivable
  | .get _ | .delete _ | .setConditions .. | .getStatus _ | .listStatuses .. | .search .. => True

/-- If the request is a search by a filter that makes a query, the query is not too large. -/
def IsMeasured : Request → Prop
  | .search _ filter _ _ =>
    ∀ q, Query.ofText filter = .ok (some q) → ∃ height, q.measure = .ok height
  | .create .. | .get _ | .delete _ | .setConditions .. | .report .. | .getStatus _
  | .listStatuses .. => True

/-- The board has done its part: it answers, or the request is not right, or it is about something
that is not there, or it wants a name for a new resource that a live one of the kind has. -/
inductive IsServed (s : Store) (request : Request) : Except ServiceError Response → Prop where
  | answered (response : Response) : IsServed s request (.ok response)
  | notRight {e : ServiceError} (h : e.errorClass = .badRequest) : IsServed s request (.error e)
  | notFound {e : ServiceError} (h : e.errorClass = .notFound) : IsServed s request (.error e)
  | conflict {e : ServiceError} {kind : String} {new : NewResource} (h : e.errorClass = .conflict)
      (hrequest : request = .create kind new) (hname : s.HasName kind new.name) :
      IsServed s request (.error e)

end Request

/-- A call meets nothing that is beyond the board: its time is not up, the clock is of a year that
rows have room for, the identity is fresh, and the request can be received and put to the
database. -/
structure Call.IsOrdinary (c : Call) (s : Store) : Prop where
  cancel : c.cancel = .never
  years : 0 ≤ c.now.date.year ∧ c.now.date.year ≤ 9999
  freshResource : ∀ r ∈ s.resources, r.id ≠ .text c.freshId.toText
  freshStatus : ∀ r ∈ s.statuses, r.id ≠ .text c.freshId.toText
  receivable : c.request.IsReceivable
  measured : c.request.IsMeasured

theorem Call.IsOrdinary.cancel_ne {c : Call} {s : Store} (h : c.IsOrdinary s) :
    c.cancel ≠ .before := by
  simp [h.cancel]

/-! ## What the board wrote -/

/-- The tables are as the board left them. -/
structure Store.IsIntact (s : Store) : Prop where
  consistent : ∃ written, s.Consistent written
  tells : ∃ log, s.Tells log
  written : s.IsWritten

theorem Board.isIntact_run (b : Board) {calls : List Call}
    (hordered : ∀ c ∈ calls, c.request.IsOrdered) : (b.run calls).1.IsIntact :=
  ⟨b.consistent_run calls, ⟨_, b.tells_run calls⟩, b.isWritten_run calls hordered⟩

namespace Store.IsIntact

variable {s : Store} {resource : ResourceRef}

/-- The row of a resource is read. -/
theorem getResource (h : s.IsIntact) {row : ResourceRow}
    (hfind : s.findResource? resource = some row) :
    ∃ x, s.getResource .never resource = .ok (some x) := by
  obtain ⟨-, x, hread⟩ := h.written row (List.mem_of_find?_eq_some hfind)
  exact ⟨x, getResource_never_eq_ok_iff.mpr ⟨row, hfind, hread⟩⟩

/-- A record that is read from a row is a status: its conditions are those of a document. -/
theorem toStatus (h : s.IsIntact) {row : StatusRow} (hrow : row ∈ s.statuses)
    {record : StatusRecord} (hread : StatusRecord.ofRow row = .ok record) :
    ∃ status, record.toStatus = .ok status := by
  obtain ⟨log, htells⟩ := h.tells
  obtain ⟨id, first, last, d, -, -, -, hparse, htold⟩ := htells.statuses row hrow
  have hconditions : row.conditions = .text d.render := congrArg StatusRow.conditions htold
  have hsame : record.conditions = d.render :=
    Cell.text.inj ((StatusRecord.says_of_ofRow hread).conditions.symm.trans hconditions)
  exact ⟨_, StatusRecord.toStatus_eq_ok_iff.mpr ⟨d, hsame ▸ hparse, rfl⟩⟩

/-- The row of a key is read, and what it says is a status. -/
theorem getStatus (h : s.IsIntact) {key : StatusKey} {row : StatusRow}
    (hfind : s.findStatus? key = some row) :
    ∃ record status, s.getStatus .never key = .ok (some record) ∧
      record.toStatus = .ok status := by
  have hrow := List.mem_of_find?_eq_some hfind
  obtain ⟨written, hconsistent⟩ := h.consistent
  obtain ⟨record, hread⟩ := hconsistent.readable row hrow (findStatus?_isLive hfind)
  obtain ⟨status, hstatus⟩ := h.toStatus hrow hread
  exact ⟨record, status, getStatus_never_eq_ok_iff.mpr ⟨row, hfind, hread⟩, hstatus⟩

/-- The statuses of a resource that is there are listed, and all are statuses. -/
theorem listStatuses (h : s.IsIntact) (hshows : s.Shows resource) (page : PageRequest) :
    ∃ p, s.listStatuses .never resource page = .ok p ∧
      ∀ record ∈ p.items, ∃ status, record.toStatus = .ok status := by
  obtain ⟨written, hconsistent⟩ := h.consistent
  have hnever : Cancellation.never ≠ .before := by decide
  obtain ⟨p, hlist, -⟩ := hconsistent.listStatuses hshows hnever page
  refine ⟨p, hlist, fun record hrecord => ?_⟩
  obtain ⟨-, -, hpage⟩ := bind_eq_ok_iff.mp hlist
  obtain ⟨items, hitems, hp⟩ := bind_eq_ok_iff.mp hpage
  cases hp
  obtain ⟨row, hrow, hread⟩ := Selection.mem_mapM hitems record hrecord
  have hmem := List.mem_mergeSort.mp (List.mem_of_mem_drop (List.mem_of_mem_take hrow))
  exact h.toStatus (List.mem_filter.mp hmem).1 hread

/-- A search shows a page, unless its query is too large. -/
theorem search (h : s.IsIntact) (kind : String) {query : Option Query}
    (hmeasured : ∀ q ∈ query, ∃ height, q.measure = .ok height) (page : PageRequest) :
    ∃ p, s.search .never kind query page = .ok p := by
  obtain ⟨f, hf⟩ := h.written.exists_reading
  have hcount := Selection.count_eq (fun r hr => (hf r hr).1) (Query.predicates kind query)
  have hitems := Selection.items_eq (fun r hr => (hf r hr).1) (fun r hr => (hf r hr).2) page
    (Query.predicates kind query)
  exact ⟨⟨_, page.page, page.pageSize, _⟩, Store.search_eq_ok_iff.mpr
    ⟨rfl, Query.prepare_of_measure hmeasured, hcount, hitems, rfl, rfl⟩⟩

/-- Conditions of a resource that is there are replaced, at a time that rows have room for. -/
theorem updateConditions (h : s.IsIntact) {row : ResourceRow}
    (hfind : s.findResource? resource = some row) {conditions : List ConditionInput}
    (hnodup : (conditions.map (·.type)).Nodup) (generation : Int64) {now : Instant}
    (hnow : 0 ≤ now.date.year ∧ now.date.year ≤ 9999) :
    ∃ draft updated, s.updateConditions .never resource now (fun raw =>
      ⟨(Document.setOver conditions generation now raw).render, false⟩) = ⟨draft, .ok updated⟩ := by
  obtain ⟨-, x, hread⟩ := h.written row (List.mem_of_find?_eq_some hfind)
  have hsays := Resource.ofRow_eq_ok_iff.mp hread
  obtain ⟨raw, htext, -⟩ := hsays.statusConditions
  have hparse := Document.parse_render_mergedOver
    (Document.hasDistinctTypes_sent hnodup generation now) (Document.previousOf (some raw)) now
  let updated : Resource := { x with
    statusConditions := Document.setOver conditions generation now raw
    updatedTime := now.truncateMicros }
  have hupdated : (withConditions (Document.setOver conditions generation now raw).render now
      row).Says updated := {
    hsays with
    statusConditions := ⟨_, rfl, hparse⟩
    updatedTime := ⟨_, rfl, Instant.parseStrict?_toStorageText hnow⟩ }
  exact ⟨_, updated, updateConditions_of_found hfind htext rfl
    (Resource.ofRow_eq_ok_iff.mpr hupdated)⟩

end Store.IsIntact

/-! ## Where pages start -/

/-- With pages up to half of the greatest size that there is, no start of a page overflows. -/
theorem Paging.offset_resolve {p : Paging} (h : p.maxPageSize.toNat ≤ 2 ^ 31)
    (page pageSize : Option UInt32) :
    (p.resolve page pageSize).offset.toInt =
      (((p.resolve page pageSize).page.toNat - 1) * (p.resolve page pageSize).pageSize.toNat :
        Nat) := by
  have hone : (1 : UInt32).toNat = 1 := rfl
  have hpage := (p.resolve page pageSize).page.toNat_lt
  have hsize : (p.resolve page pageSize).pageSize.toNat ≤ 2 ^ 31 := by
    simp only [resolve, PageRequest.clamped, UInt32.toNat_max, UInt32.toNat_min, hone]
    omega
  apply PageRequest.offset_eq_start
  calc (p.resolve page pageSize).start
      ≤ (2 ^ 32 - 2) * 2 ^ 31 := Nat.mul_le_mul (by omega) hsize
    _ < 2 ^ 63 := by norm_num

/-! ## Every request -/

namespace Board

variable {b : Board} {c : Call} {s : Store} {spec : KindSpec}

/-- What is asked of a kind that is not known is refused. -/
theorem answer_of_unknownKind {e : ValidationError} (h : b.kinds.resolve c.request.kind = .error e)
    (s : Store) : b.answer s c = ⟨s, .error (.invalid e)⟩ := by
  have hresolve : b.resolve c.request.kind = .error (.invalid e) := by
    rw [resolve, h]
    rfl
  unfold answer
  generalize c.request = request at hresolve
  cases request <;> simp only [Request.kind] at hresolve
  all_goals
    simp only [handle, create, get, delete, setConditions, incomingConditions, report, getStatus,
      listStatuses, search, hresolve]
    rfl

theorem isServed_create (h : c.IsOrdinary s) {kind : String} {new : NewResource}
    (hrequest : c.request = .create kind new) (hspec : b.resolve kind = .ok spec) :
    (Request.create kind new).IsServed s (b.answer s c).result := by
  cases hvalid : new.validate with
  | error e =>
      have hanswer : b.answer s c = ⟨s, .error (.invalid e)⟩ := by
        simp only [answer, hrequest, handle, create, hspec, hvalid]
        rfl
      rw [hanswer]
      exact .notRight rfl
  | ok valid =>
      by_cases hname : s.HasName kind new.name
      · have htaken : s.isTaken (new.toRow c.freshId kind c.now) = true := by
          by_contra hfree
          rw [Bool.not_eq_true] at hfree
          exact (Store.not_isTaken_toRow_iff.mp hfree).2 hname
        have hanswer : b.answer s c = ⟨s, .error (.nameTaken kind new.name)⟩ := by
          simp only [answer, hrequest, handle, create, hspec, hvalid, c.circumstances_now,
            c.circumstances_freshId, c.circumstances_cancel,
            Store.createResource_of_taken h.cancel_ne htaken]
          rfl
        rw [hanswer]
        exact .conflict rfl rfl hname
      · have hreceivable := h.receivable
        rw [hrequest] at hreceivable
        obtain ⟨x, -, hanswer, -⟩ := answer_of_creates
          ⟨hrequest, h.cancel, hvalid, hreceivable, h.years, h.freshResource, hname⟩ hspec
        rw [hanswer]
        exact .answered _

/-- A call about a resource that is not there is told so. -/
theorem isServed_of_hidden (h : c.IsOrdinary s) {resource : ResourceRef}
    (hspec : b.resolve resource.kind = .ok spec) (hmissing : s.findResource? resource = none)
    {request : Request} (hrequest : c.request = request)
    (hasks : request.AsksFor resource (.resource resource)) :
    request.IsServed s (b.answer s c).result := by
  rw [answer_of_hidden hspec hmissing h.cancel_ne (hrequest ▸ hasks)]
  exact .notFound rfl

theorem isServed_delete (h : c.IsOrdinary s) {resource : ResourceRef}
    (hrequest : c.request = .delete resource) (hspec : b.resolve resource.kind = .ok spec) :
    (Request.delete resource).IsServed s (b.answer s c).result := by
  cases hfind : s.findResource? resource with
  | none => exact isServed_of_hidden h hspec hfind hrequest .delete
  | some row =>
      have hshows := Store.isSome_findResource?_iff.mp (Option.isSome_of_eq_some hfind)
      rw [answer_of_deletion hrequest hspec h.cancel hshows]
      exact .answered _

/-- Conditions that are not right are refused as such. -/
theorem incomingConditions_cases {resource : ResourceRef}
    (hspec : b.resolve resource.kind = .ok spec) (m : Circumstances) (generation : Int64)
    (conditions : List ConditionInput) :
    (∃ e, b.incomingConditions m resource generation conditions = .error (.invalid e)) ∨
      b.incomingConditions m resource generation conditions =
        .ok (.sent conditions generation m.now) := by
  simp only [incomingConditions, hspec, bind, Except.bind]
  cases hcheck : checkResourceConditions conditions with
  | error e => exact .inl ⟨e, rfl⟩
  | ok checked =>
      cases hdocument : Document.ofInputs conditions generation m.now with
      | error e => exact .inl ⟨e, rfl⟩
      | ok incoming =>
          obtain ⟨-, rfl⟩ := Document.ofInputs_eq_ok_iff.mp hdocument
          exact .inr rfl

theorem isServed_setConditions (h : c.IsOrdinary s) (hintact : s.IsIntact)
    {resource : ResourceRef} {generation : Int64} {conditions : List ConditionInput}
    (hrequest : c.request = .setConditions resource generation conditions)
    (hspec : b.resolve resource.kind = .ok spec) :
    (Request.setConditions resource generation conditions).IsServed s (b.answer s c).result := by
  obtain ⟨e, hincoming⟩ | hincoming :=
    incomingConditions_cases hspec c.circumstances generation conditions
  · have hanswer : b.answer s c = ⟨s, .error (.invalid e)⟩ := by
      simp only [answer, hrequest, handle, setConditions, hincoming]
      rfl
    rw [hanswer]
    exact .notRight rfl
  · obtain ⟨hchecked, hnodup, -⟩ := incomingConditions_eq_ok hincoming
    cases hfind : s.findResource? resource with
    | none =>
        exact isServed_of_hidden h hspec hfind hrequest
          (.setConditions generation hchecked hnodup)
    | some row =>
        obtain ⟨draft, updated, hupdate⟩ :=
          hintact.updateConditions hfind hnodup generation h.years
        have hanswer : b.answer s c = ⟨draft, .ok (.resource updated)⟩ := by
          simp only [answer, hrequest, handle, setConditions, hincoming,
            Document.document_mergedOverStored]
          rw [c.circumstances_cancel, h.cancel]
          exact congrArg (fun a => handle.wrap (reply a .ok) .resource) hupdate
        rw [hanswer]
        exact .answered _

theorem isServed_report (h : c.IsOrdinary s) (hintact : s.IsIntact) {resource : ResourceRef}
    {r : Report} (hrequest : c.request = .report resource r)
    (hspec : b.resolve resource.kind = .ok spec) :
    (Request.report resource r).IsServed s (b.answer s c).result := by
  cases hvalid : r.validate with
  | error e =>
      rw [answer_report_of_invalid s hrequest
        (.inr ⟨⟨spec, mapError_eq_ok_iff.mp hspec⟩, hvalid⟩)]
      exact .notRight rfl
  | ok valid =>
      cases hfind : s.findResource? resource with
      | none => exact isServed_of_hidden h hspec hfind hrequest (.report hvalid)
      | some row =>
          have hgate : b.AtGate c s resource r spec :=
            ⟨hrequest, hspec, hvalid, h.cancel, Option.isSome_of_eq_some hfind⟩
          obtain ⟨written, hconsistent⟩ := hintact.consistent
          by_cases hopen : passesMandatory r.conditions spec.mandatory = .ok ()
          · have hreceivable := h.receivable
            rw [hrequest] at hreceivable
            obtain ⟨log, htells⟩ := hintact.tells
            obtain ⟨status, isNew, hanswer, -⟩ :=
              hgate.answer_of_open hopen hconsistent htells h.freshStatus hreceivable.isReadable h.years
            rw [hanswer]
            exact .answered _
          · rw [hgate.answer_of_closed hopen hconsistent]
            exact .answered _

theorem isServed_get (h : c.IsOrdinary s) (hintact : s.IsIntact) {resource : ResourceRef}
    (hrequest : c.request = .get resource) (hspec : b.resolve resource.kind = .ok spec) :
    (Request.get resource).IsServed s (b.answer s c).result := by
  cases hfind : s.findResource? resource with
  | none => exact isServed_of_hidden h hspec hfind hrequest .get
  | some row =>
      obtain ⟨x, hfound⟩ := hintact.getResource hfind
      simp only [answer, hrequest, handle, get, hspec, c.circumstances_cancel, h.cancel, hfound,
        mapError_ok, bind, Except.bind]
      exact .answered _

theorem isServed_getStatus (h : c.IsOrdinary s) (hintact : s.IsIntact) {key : StatusKey}
    (hrequest : c.request = .getStatus key) (hspec : b.resolve key.resourceType = .ok spec) :
    (Request.getStatus key).IsServed s (b.answer s c).result := by
  cases hfind : s.findStatus? key with
  | none =>
      have hnever : Cancellation.never ≠ .before := by decide
      simp only [answer, hrequest, handle, getStatus, hspec, c.circumstances_cancel, h.cancel,
        Store.getStatus_of_absent hnever hfind, mapError_ok, bind, Except.bind]
      exact .notFound rfl
  | some row =>
      obtain ⟨record, status, hfound, hstatus⟩ := hintact.getStatus hfind
      simp only [answer, hrequest, handle, getStatus, hspec, c.circumstances_cancel, h.cancel,
        hfound, readStatus, hstatus, mapError_ok, bind, Except.bind]
      exact .answered _

theorem isServed_listStatuses (h : c.IsOrdinary s) (hintact : s.IsIntact)
    {resource : ResourceRef} {page pageSize : Option UInt32}
    (hrequest : c.request = .listStatuses resource page pageSize)
    (hspec : b.resolve resource.kind = .ok spec) :
    (Request.listStatuses resource page pageSize).IsServed s (b.answer s c).result := by
  cases hfind : s.findResource? resource with
  | none => exact isServed_of_hidden h hspec hfind hrequest (.listStatuses page pageSize)
  | some row =>
      obtain ⟨x, hfound⟩ := hintact.getResource hfind
      have hshows := Store.isSome_findResource?_iff.mp (Option.isSome_of_eq_some hfind)
      obtain ⟨p, hlist, hstatuses⟩ := hintact.listStatuses hshows (b.paging.resolve page pageSize)
      have hread : ∀ record ∈ p.items, ∃ status, readStatus record = .ok status := by
        intro record hrecord
        obtain ⟨status, hstatus⟩ := hstatuses record hrecord
        exact ⟨status, mapError_eq_ok_iff.mpr hstatus⟩
      obtain ⟨statuses, hmapped⟩ := Store.Consistent.exists_mapM_ok hread
      simp only [answer, hrequest, handle, listStatuses, hspec, c.circumstances_cancel, h.cancel,
        hfound, hlist, Page.mapM, hmapped, mapError_ok, bind, Except.bind]
      exact .answered _

theorem isServed_search (h : c.IsOrdinary s) (hintact : s.IsIntact) {kind filter : String}
    {page pageSize : Option UInt32} (hrequest : c.request = .search kind filter page pageSize)
    (hspec : b.resolve kind = .ok spec) :
    (Request.search kind filter page pageSize).IsServed s (b.answer s c).result := by
  cases hquery : Query.ofText filter with
  | error fault =>
      simp only [answer, hrequest, handle, search, hspec, hquery, bind, Except.bind]
      exact .notRight rfl
  | ok query =>
      have hmeasured := h.measured
      rw [hrequest] at hmeasured
      have hfits : ∀ q ∈ query, ∃ height, q.measure = .ok height := by
        rintro q rfl
        exact hmeasured q hquery
      obtain ⟨p, hsearch⟩ := hintact.search kind hfits (b.paging.resolve page pageSize)
      rw [answer_search hspec hquery hrequest, h.cancel, hsearch]
      exact .answered _

/-- Where the tables are as the board left them, every ordinary call is served. -/
theorem isServed_answer (h : c.IsOrdinary s) (hintact : s.IsIntact) :
    c.request.IsServed s (b.answer s c).result := by
  cases hkind : b.kinds.resolve c.request.kind with
  | error e =>
      rw [answer_of_unknownKind hkind s]
      exact .notRight rfl
  | ok spec =>
      have hspec : b.resolve c.request.kind = .ok spec := mapError_eq_ok_iff.mpr hkind
      generalize hrequest : c.request = request at hspec ⊢
      cases request with
      | create kind new => exact isServed_create h hrequest hspec
      | get resource => exact isServed_get h hintact hrequest hspec
      | delete resource => exact isServed_delete h hrequest hspec
      | setConditions resource generation conditions =>
          exact isServed_setConditions h hintact hrequest hspec
      | report resource r => exact isServed_report h hintact hrequest hspec
      | getStatus key => exact isServed_getStatus h hintact hrequest hspec
      | listStatuses resource page pageSize =>
          exact isServed_listStatuses h hintact hrequest hspec
      | search kind filter page pageSize => exact isServed_search h hintact hrequest hspec

/-- After any calls, every call that meets nothing beyond the board is served, whatever it asks: it
is answered, or told that it is not right, that something is not there, or, if it creates a
resource, that a live one of the kind has the name.  Nor does the start of any page that can be
asked for overflow. -/
theorem calls_are_served {b : Board} (hsize : b.paging.maxPageSize.toNat ≤ 2 ^ 31)
    {calls : List Call} (hordered : ∀ c ∈ calls, c.request.IsOrdered) {c : Call}
    (h : c.IsOrdinary (b.run calls).1) :
    c.request.IsServed (b.run calls).1 (b.answer (b.run calls).1 c).result ∧
      ∀ page pageSize, (b.paging.resolve page pageSize).offset.toInt =
        (((b.paging.resolve page pageSize).page.toNat - 1) *
          (b.paging.resolve page pageSize).pageSize.toNat : Nat) :=
  ⟨isServed_answer h (b.isIntact_run hordered), b.paging.offset_resolve hsize⟩

/-- It is asked for the clusters of an environment that is for tests. -/
def sampleSearch : Call where
  now := default
  freshId := sampleId
  cancel := .never
  request := .search "Cluster" (Filter.labelText "env" "test") (some 3) (some 1000)

theorem calls_are_served_sample :
    let s := (sampleBoard.run (sampleCalls.take 1)).1
    sampleRevival.request.IsServed s (sampleBoard.answer s sampleRevival).result ∧
      sampleSearch.request.IsServed s (sampleBoard.answer s sampleSearch).result ∧
      (sampleBoard.paging.resolve (some 3) (some 1000)).offset.toInt = 200 := by
  intro s
  have hordered : ∀ c ∈ sampleCalls.take 1, c.request.IsOrdered := by
    simp [sampleCalls, Request.IsOrdered, Dict.Sorted]
  have hsize : sampleBoard.paging.maxPageSize.toNat ≤ 2 ^ 31 := by decide
  have hrevival : sampleRevival.IsOrdinary s :=
    ⟨rfl, by decide, by decide +kernel, by decide +kernel, .null _, trivial⟩
  have hsearch : sampleSearch.IsOrdinary s := by
    refine ⟨rfl, by decide, by decide +kernel, by decide +kernel, trivial, ?_⟩
    have hkey : isLabelKey "env" = true := by decide
    obtain ⟨q, height, hquery, hmeasure⟩ := Query.ofExpr_label hkey "test"
    have htext := Query.ofText_of_parse (Filter.parse_labelText hkey "test") hquery
    intro q' hq'
    cases htext.symm.trans hq'
    exact ⟨height, hmeasure⟩
  exact ⟨(calls_are_served hsize hordered hrevival).1, (calls_are_served hsize hordered hsearch).1,
    (calls_are_served hsize hordered hsearch).2 (some 3) (some 1000)⟩

end Board
end StatusBoard

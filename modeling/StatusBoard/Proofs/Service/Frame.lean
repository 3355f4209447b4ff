import StatusBoard.Proofs.Service.Race
import StatusBoard.Proofs.Store.Frame
set_option autoImplicit false

/-!
# Service: what a call leaves alone

A call changes the rows that it is for and no others, whatever the tables hold: rows that were
deleted, rows of the same identity under another kind, and rows that are damaged stay as they are.
There is one exception, a report on a key whose row has its identity in another form than the
written one.  If another live row has the written form, the report is stored there, and is answered
as stored.
-/

namespace StatusBoard

/-- What an answer may have changed: nothing if the request only looks; one row if a resource is
created, given conditions or reported on; a resource and its live statuses if it is deleted. -/
structure Request.Frame (request : Request) (s : Store) (reply : Reply Response) : Prop where
  read : request.isRead = true → reply.store = s
  created : ∀ kind new resource, request = .create kind new →
    reply.result = .ok (.resource resource) →
      ∃ row, row.isLive = true ∧ reply.store = { s with resources := s.resources ++ [row] }
  first : ∀ resource r status, request = .report resource r →
    reply.result = .ok (.outcome (.stored status true)) →
      ∃ row, row.isOf (.of resource r.adapter) = true ∧
        reply.store = { s with statuses := s.statuses ++ [row] }
  again : ∀ resource r status, request = .report resource r →
    reply.result = .ok (.outcome (.stored status false)) →
      ∃ statuses, ChangesOne (·.isOf (.of resource r.adapter)) StatusRow.IsReportedOver s.statuses
        statuses ∧ reply.store = { s with statuses }
  conditioned : ∀ resource generation conditions updated,
    request = .setConditions resource generation conditions →
    reply.result = .ok (.resource updated) →
      ∃ resources, ChangesOne (·.isOf resource) ResourceRow.IsConditionedOver s.resources
        resources ∧ reply.store = { s with resources }
  deleted : ∀ resource, request = .delete resource → reply.result = .ok .deleted →
    ChangesOne (·.isOf resource) ResourceRow.IsMarked s.resources reply.store.resources ∧
    List.Forall₂ (fun old new => if old.isAbout resource then old.IsMarked new else new = old)
      s.statuses reply.store.statuses

namespace Request.Frame

variable {request : Request} {s t : Store}

/-- A call that fails is held to nothing, unless it is a read. -/
theorem of_error (e : ServiceError) (hread : request.isRead = true → t = s) :
    request.Frame s ⟨t, .error e⟩ where
  read := hread
  created := by rintro _ _ _ - ⟨⟩
  first := by rintro _ _ _ - ⟨⟩
  again := by rintro _ _ _ - ⟨⟩
  conditioned := by rintro _ _ _ _ - ⟨⟩
  deleted := by rintro _ - ⟨⟩

theorem of_discarded (reason : Rejection) :
    request.Frame s ⟨s, .ok (.outcome (.discarded reason))⟩ where
  read _ := rfl
  created := by rintro _ _ _ - ⟨⟩
  first := by rintro _ _ _ - ⟨⟩
  again := by rintro _ _ _ - ⟨⟩
  conditioned := by rintro _ _ _ _ - ⟨⟩
  deleted := by rintro _ - ⟨⟩

theorem of_read (hread : request.isRead = true) (result : Except ServiceError Response) :
    request.Frame s ⟨s, result⟩ where
  read _ := rfl
  created := by rintro _ _ _ rfl; cases hread
  first := by rintro _ _ _ rfl; cases hread
  again := by rintro _ _ _ rfl; cases hread
  conditioned := by rintro _ _ _ _ rfl; cases hread
  deleted := by rintro _ rfl; cases hread

variable {kind : String} {new : NewResource} {resource : ResourceRef} {r : Report}

theorem of_create {row : ResourceRow} (hlive : row.isLive = true)
    (result : Except ServiceError Response) :
    (Request.create kind new).Frame s ⟨s.withResource row, result⟩ where
  read := by rintro ⟨⟩
  created := fun _ _ _ _ _ => ⟨row, hlive, rfl⟩
  first := by rintro _ _ _ ⟨⟩
  again := by rintro _ _ _ ⟨⟩
  conditioned := by rintro _ _ _ _ ⟨⟩
  deleted := by rintro _ ⟨⟩

theorem of_setConditions {generation : Int64} {conditions : List ConditionInput}
    {resources : List ResourceRow}
    (hchanges : ChangesOne (·.isOf resource) ResourceRow.IsConditionedOver s.resources resources)
    (result : Except ServiceError Response) :
    (Request.setConditions resource generation conditions).Frame s
      ⟨{ s with resources }, result⟩ where
  read := by rintro ⟨⟩
  created := by rintro _ _ _ ⟨⟩
  first := by rintro _ _ _ ⟨⟩
  again := by rintro _ _ _ ⟨⟩
  conditioned := by
    rintro _ _ _ _ ⟨⟩ -
    exact ⟨resources, hchanges, rfl⟩
  deleted := by rintro _ ⟨⟩

theorem of_delete
    (hresources : ChangesOne (·.isOf resource) ResourceRow.IsMarked s.resources t.resources)
    (hstatuses : List.Forall₂ (fun old new => if old.isAbout resource then old.IsMarked new
      else new = old) s.statuses t.statuses) (result : Except ServiceError Response) :
    (Request.delete resource).Frame s ⟨t, result⟩ where
  read := by rintro ⟨⟩
  created := by rintro _ _ _ ⟨⟩
  first := by rintro _ _ _ ⟨⟩
  again := by rintro _ _ _ ⟨⟩
  conditioned := by rintro _ _ _ _ ⟨⟩
  deleted := by
    rintro _ ⟨⟩ -
    exact ⟨hresources, hstatuses⟩

theorem of_first {row : StatusRow} (hof : row.isOf (.of resource r.adapter) = true)
    (status : AdapterStatus) :
    (Request.report resource r).Frame s
      ⟨{ s with statuses := s.statuses ++ [row] }, .ok (.outcome (.stored status true))⟩ where
  read := by rintro ⟨⟩
  created := by rintro _ _ _ ⟨⟩
  first := by
    rintro _ _ _ ⟨⟩ -
    exact ⟨row, hof, rfl⟩
  again := by rintro _ _ _ - ⟨⟩
  conditioned := by rintro _ _ _ _ ⟨⟩
  deleted := by rintro _ ⟨⟩

theorem of_again {statuses : List StatusRow}
    (hchanges : ChangesOne (·.isOf (.of resource r.adapter)) StatusRow.IsReportedOver s.statuses
      statuses) (status : AdapterStatus) :
    (Request.report resource r).Frame s
      ⟨{ s with statuses }, .ok (.outcome (.stored status false))⟩ where
  read := by rintro ⟨⟩
  created := by rintro _ _ _ ⟨⟩
  first := by rintro _ _ _ - ⟨⟩
  again := by
    rintro _ _ _ ⟨⟩ -
    exact ⟨statuses, hchanges, rfl⟩
  conditioned := by rintro _ _ _ _ ⟨⟩
  deleted := by rintro _ ⟨⟩

end Request.Frame

namespace Board

/-- A report that is stored over another row than the one that its key has. -/
structure HitsAnother (b : Board) (c : Call) (s : Store) (resource : ResourceRef) (r : Report)
    (row : StatusRow) (record : StatusRecord) : Prop where
  request : c.request = .report resource r
  cancel : c.cancel = .never
  gate : ∃ spec, b.resolve resource.kind = .ok spec ∧
    passesMandatory r.conditions spec.mandatory = .ok ()
  valid : r.validate = .ok ()
  owner : (s.findResource? resource).isSome = true
  found : s.findStatus? (.of resource r.adapter) = some row
  read : StatusRecord.ofRow row = .ok record
  /-- The identity of the row is not in its written form. -/
  misspelt : row.id ≠ .text record.id.toText
  readable : ∃ d, Document.parse record.conditions = .ok d
  /-- Another live row has the written form for its identity. -/
  other : ∃ other ∈ s.statuses, Store.isNumbered record.id other = true ∧
    (r.writeOver c.now (some record)).applyTo other ≠ other

variable {b : Board} {c : Call} {s : Store} {resource : ResourceRef} {r : Report} {row : StatusRow}
  {record : StatusRecord}

/-- A report that hits another row is answered as stored. -/
theorem HitsAnother.answer_eq (h : b.HitsAnother c s resource r row record) :
    ∃ status, b.answer s c =
      ⟨s.overwritten record.id (r.writeOver c.now (some record)),
        .ok (.outcome (.stored status false))⟩ := by
  obtain ⟨spec, hspec, hgate⟩ := h.gate
  obtain ⟨d, hreadable⟩ := h.readable
  obtain ⟨other, hother, hnumbered, -⟩ := h.other
  obtain ⟨status, hstatus⟩ : ∃ status, record.toStatus = .ok status :=
    ⟨_, StatusRecord.toStatus_eq_ok_iff.mpr ⟨d, hreadable, rfl⟩⟩
  refine ⟨status, ?_⟩
  rw [answer_of_misspelt h.request h.cancel hspec hgate h.valid h.owner h.found h.read h.misspelt
    hother hnumbered]
  simp [handle.wrap, reply, reportOutcome, readStatus, hstatus, Except.bind, bind, Except.map]
  rfl

/-- Then more is changed than the row of its key. -/
theorem HitsAnother.not_frame (h : b.HitsAnother c s resource r row record)
    (hschema : s.ObeysSchema) : ¬ c.request.Frame s (b.answer s c) := by
  obtain ⟨status, hanswer⟩ := h.answer_eq
  intro hframe
  obtain ⟨statuses, hchanges, hstore⟩ :=
    hframe.again _ _ status h.request (congrArg Reply.result hanswer)
  rw [hanswer] at hstore
  rw [show statuses = _ from (congrArg Store.statuses hstore).symm] at hchanges
  rcases (hschema.changesOne_overwritten_iff h.found).mp hchanges with hnumbered | hsame
  · rw [isNumbered_eq_false h.misspelt] at hnumbered
    cases hnumbered
  · exact Store.overwritten_ne_iff.mpr h.other hsame

/-- A report is stored only if nobody cancels it. -/
theorem cancel_of_stored {status : AdapterStatus} {isNew : Bool}
    (hrequest : c.request = .report resource r)
    (hstored : (b.answer s c).result = .ok (.outcome (.stored status isNew))) :
    c.cancel = .never := by
  have hreport : (b.report c.circumstances s resource r).result = .ok (.stored status isNew) := by
    unfold answer at hstored
    rw [hrequest] at hstored
    obtain ⟨outcome, houtcome, hstored⟩ := bind_eq_ok_iff.mp hstored
    cases hstored
    exact houtcome
  obtain ⟨spec, record, -, hresult, -⟩ := report_eq_stored hreport
  obtain ⟨e, hfailed⟩ | hskipped | ⟨draft, inserted, record', -, hupserts⟩ :=
    s.upsertStatus_cases c.cancel c.freshId (planner spec r c.now)
      (Store.contests_clear (.of resource r.adapter))
  · cases hresult.symm.trans (congrArg Answer.result hfailed)
  · cases isNew <;> cases hresult.symm.trans (congrArg Answer.result hskipped)
  · exact hupserts.cancel

/-- What a report that is stored writes keeps the frame, unless the report hits another row. -/
theorem frame_of_stored {spec : KindSpec} {draft : Store} {inserted : Bool} {status : AdapterStatus}
    (hschema : s.ObeysSchema) (hrequest : c.request = .report resource r) (hcancel : c.cancel = .never)
    (hspec : b.resolve resource.kind = .ok spec) (hvalid : r.validate = .ok ())
    (howner : (s.findResource? resource).isSome = true)
    (hwrites : Store.Writes (planner spec r c.now) (.of resource r.adapter) c.freshId s draft inserted)
    (hfind : draft.findStatus? (.of resource r.adapter) = some row)
    (hread : StatusRecord.ofRow row = .ok record) (hstatus : record.toStatus = .ok status)
    (hnone : ¬ ∃ resource r row record, b.HitsAnother c s resource r row record) :
    c.request.Frame s ⟨draft, .ok (.outcome (.stored status inserted))⟩ := by
  rw [hrequest]
  cases hwrites with
  | insert plan fresh absent => exact .of_first (Store.isOf_toRow _ _ _) status
  | @update _ w row' previous plan found read numbered =>
      refine .of_again ((hschema.changesOne_overwritten_iff found).mpr ?_) status
      refine or_iff_not_imp_left.mpr fun hmissed => ?_
      by_contra hchanged
      -- The row of the key is read back as it was, since it was missed.
      rw [Bool.not_eq_true] at hmissed
      rw [Store.findStatus?_overwritten, found, Option.map_some, hmissed] at hfind
      simp only [Bool.false_eq_true, if_false, Option.some.injEq] at hfind
      subst hfind
      cases read.symm.trans (StatusRecord.ofRowForUpdate_of_ofRow hread)
      obtain ⟨hgate, -, rfl⟩ := planner_eq_write_iff.mp plan
      have hmisspelt : row'.id ≠ .text record.id.toText := by
        intro hid
        simp [Store.isNumbered, hid, Store.findStatus?_isLive found] at hmissed
      obtain ⟨d, hparse, -⟩ := StatusRecord.toStatus_eq_ok_iff.mp hstatus
      exact hnone ⟨_, _, _, _, hrequest, hcancel, ⟨spec, hspec, hgate⟩, hvalid, howner, found, hread,
        hmisspelt, ⟨d, hparse⟩, Store.overwritten_ne_iff.mp hchanged⟩

/-! ## All tables that there can be -/

/-- A call leaves tables as the schema has them. -/
theorem obeysSchema_answer (b : Board) (c : Call) {s : Store} (h : s.ObeysSchema) :
    (b.answer s c).store.ObeysSchema := by
  have hends := b.ends_answer c s
  generalize b.answer s c = reply at hends
  cases hends with
  | failed _ | discarded _ | read _ _ => exact h
  | created hrequest hvalid hfree hread hkind => exact h.withResource hfree
  | deleted hrequest hlive => exact h.markDeleted _ c.now
  | conditioned hrequest hnodup hfind htext hread hcheck => exact h.setConditions _ _ c.now
  | stored hrequest howner hwrites hfind hread hstatus hspec hvalid => exact h.writes hwrites
  | unreadable hrequest hspec hvalid hcancel howner hwrites hfind hread hunreadable =>
      exact h.writes hwrites

/-- Tables that calls, and edits by hand between them, have led to. -/
inductive IsLeft (b : Board) : Store → Prop where
  | empty : IsLeft b .empty
  | called {s : Store} (h : IsLeft b s) (c : Call) : IsLeft b (b.answer s c).store
  | editedResource {s t : Store} {id column : String} {value : Cell} {n : Nat} (h : IsLeft b s)
      (edit : s.editResource id column value = .ok (t, n)) : IsLeft b t
  | editedStatus {s t : Store} {id column : String} {value : Cell} {n : Nat} (h : IsLeft b s)
      (edit : s.editStatus id column value = .ok (t, n)) : IsLeft b t

/-- However the tables were damaged, they are as the schema has them. -/
theorem IsLeft.obeysSchema {b : Board} {s : Store} (h : b.IsLeft s) : s.ObeysSchema := by
  induction h with
  | empty => exact .empty
  | called h c ih => exact b.obeysSchema_answer c ih
  | editedResource h edit ih => exact ih.editResource edit
  | editedStatus h edit ih => exact ih.editStatus edit

/-! ## Every call -/

/-- A call changes the rows that it is for and no others, whatever the cells of the tables hold,
unless it is a report that hits another row. -/
theorem calls_keep_frame_iff (b : Board) (c : Call) {s : Store} (hschema : s.ObeysSchema) :
    c.request.Frame s (b.answer s c) ↔
      ¬ ∃ resource r row record, b.HitsAnother c s resource r row record := by
  constructor
  · rintro hframe ⟨resource, r, row, record, hhits⟩
    exact hhits.not_frame hschema hframe
  · intro hnone
    have hends := b.ends_answer c s
    obtain ⟨reply, hreply⟩ : ∃ reply, b.answer s c = reply := ⟨_, rfl⟩
    rw [hreply] at hends ⊢
    cases hends with
    | failed e => exact .of_error e fun _ => rfl
    | discarded reason => exact .of_discarded reason
    | read response hread => exact .of_read hread _
    | created hrequest hvalid hfree hread hkind =>
        rw [hrequest]
        exact .of_create rfl _
    | deleted hrequest hlive =>
        obtain ⟨row, hfind⟩ := Option.isSome_iff_exists.mp hlive
        rw [hrequest]
        exact .of_delete (hschema.changesOne_markDeleted hfind c.now)
          (s.forall₂_markDeleted _ c.now) _
    | conditioned hrequest hnodup hfind htext hread hcheck =>
        rw [hrequest]
        exact .of_setConditions (hschema.changesOne_setConditions hfind _ c.now) _
    | stored hrequest howner hwrites hfind hread hstatus hspec hvalid =>
        have hcancel := cancel_of_stored hrequest (congrArg Reply.result hreply)
        exact frame_of_stored hschema hrequest hcancel hspec hvalid howner hwrites hfind hread
          hstatus hnone
    | unreadable hrequest hspec hvalid hcancel howner hwrites hfind hread hunreadable =>
        refine .of_error _ fun hlooks => ?_
        rw [hrequest] at hlooks
        cases hlooks

/-- The row of `a2` among rows that look like it: one of its key that was deleted before, and one
about a resource of another kind that has the same identity; and a row that is damaged all over. -/
def crowdedStore : Store :=
  { strayStore with statuses := [
      { strayRow "00000000-0000-4000-9000-000000000001" "a2" "x" with
        deletedTime := .text "2026-02-01T08:30:00.000000Z" },
      { strayRow "00000000-0000-4000-9000-000000000002" "a2" "[]" with
        resourceType := .text "NodePool" },
      { strayRow "00000000-0000-4000-9000-000000000003" "a1" "[]" with
        conditions := .blob [0], observedGeneration := .text "x", createdTime := .null },
      rivalRow] }

/-- The cluster is deleted. -/
def clearingCall : Call where
  now := default
  freshId := default
  cancel := .never
  request := .delete raceKey.owner

theorem calls_keep_frame_sample :
    ChangesOne (·.isOf raceKey.owner) ResourceRow.IsMarked crowdedStore.resources
      (sampleBoard.answer crowdedStore clearingCall).store.resources ∧
    List.Forall₂
      (fun old new => if old.isAbout raceKey.owner then old.IsMarked new else new = old)
      crowdedStore.statuses (sampleBoard.answer crowdedStore clearingCall).store.statuses := by
  have hnone : ¬ ∃ resource r row record,
      sampleBoard.HitsAnother clearingCall crowdedStore resource r row record := by
    rintro ⟨resource, r, row, record, h⟩
    cases h.request
  have hframe := (calls_keep_frame_iff sampleBoard clearingCall
    ⟨⟨by decide, by decide⟩, ⟨by decide, by decide⟩⟩).mpr hnone
  exact hframe.deleted _ rfl rfl

/-- The answer says that a report was stored over a row that was there. -/
def isStoredAgain (reply : Reply Response) : Bool :=
  match reply.result with
  | .ok (.outcome (.stored _ false)) => true
  | _ => false

theorem exists_of_isStoredAgain {reply : Reply Response} (h : isStoredAgain reply = true) :
    ∃ status, reply.result = .ok (.outcome (.stored status false)) := by
  unfold isStoredAgain at h
  split at h
  · rename_i status hresult
    exact ⟨status, hresult⟩
  · cases h

/-- The row of `a1` is overwritten by a report of `a2`, which is answered as stored. -/
theorem misspelt_report_breaks_frame :
    ¬ ∀ (b : Board) (c : Call) (s : Store), s.ObeysSchema → c.request.Frame s (b.answer s c) := by
  intro h
  have hlost : (sampleBoard.answer misspeltStore strayCall).store.statuses[0]? ≠
      some (strayRow "00000000-0000-4000-8000-000000abcdef" "a1" "[]") := by
    decide +kernel
  obtain ⟨status, hstored⟩ := exists_of_isStoredAgain
    (show isStoredAgain (sampleBoard.answer misspeltStore strayCall) = true by decide +kernel)
  have hframe := h sampleBoard strayCall misspeltStore
    ⟨⟨by decide, by decide⟩, ⟨by decide, by decide⟩⟩
  obtain ⟨statuses, hchanges, hstore⟩ := hframe.again _ _ status rfl hstored
  rw [hstore] at hlost
  exact hlost (hchanges.getElem?_eq (i := 0) rfl (by decide))

end Board
end StatusBoard

import Mathlib.Data.List.Induction
import StatusBoard.Proofs.Condition.History
import StatusBoard.Proofs.Service.Operation
set_option autoImplicit false

/-!
# Service: what the tables tell of all calls

After any calls, each row of statuses is what the reports make of it that were stored for
it, and each resource has the conditions that the settings of its conditions make.  Nothing
else leaves a trace in them.
-/

namespace StatusBoard

/-! ## Runs -/

/-- A call that was answered: the store that it met, and what came of it. -/
structure Answered where
  before : Store
  call : Call
  reply : Reply Response

/-- The store after calls, from the empty one on, and the calls with their answers. -/
def Board.run (b : Board) (calls : List Call) : Store × List Answered :=
  calls.foldl (fun (s, log) c => ((b.answer s c).store, log ++ [⟨s, c, b.answer s c⟩])) (.empty, [])

theorem Board.run_snoc (b : Board) (calls : List Call) (c : Call) :
    b.run (calls ++ [c]) =
      ((b.answer (b.run calls).1 c).store,
        (b.run calls).2 ++ [⟨(b.run calls).1, c, b.answer (b.run calls).1 c⟩]) := by
  rw [run, List.foldl_append]
  rfl

/-! ## What was stored -/

/-- A report that was stored, and the time that it was stamped with. -/
structure StoredReport where
  resource : ResourceRef
  report : Report
  stamp : Instant

/-- The revision that a stored report made. -/
def StoredReport.revision (r : StoredReport) : Revision :=
  ⟨r.report.conditions, r.report.observedGeneration, r.stamp⟩

/-- The time of the last report that stands in a row. -/
def StatusRow.lastReport? (r : StatusRow) : Option Instant :=
  match r.lastReportTime with
  | .text raw => Instant.parseStrict? raw
  | _ => none

/-- The time that a report on a key is stamped with: now, or the time of the last report that is
stored for the key if that is later. -/
def Store.stampFor (s : Store) (key : StatusKey) (now : Instant) : Instant :=
  match (s.findStatus? key).bind StatusRow.lastReport? with
  | some t => Instant.latest now t
  | none => now

namespace Answered

/-- The report, if it was stored in the row of an identity. -/
def reportOn? (id : Uuid) (a : Answered) : Option StoredReport :=
  match a.call.request, a.reply.result with
  | .report resource r, .ok (.outcome (.stored status _)) =>
    if status.id = id then
      some ⟨resource, r, a.before.stampFor (.of resource r.adapter) a.call.now⟩
    else
      none
  | _, _ => none

/-- The revision, if conditions were set for the resource of an identity. -/
def revisionOf? (id : Uuid) (a : Answered) : Option Revision :=
  match a.call.request, a.reply.result with
  | .setConditions _ generation conditions, .ok (.resource updated) =>
    if updated.id = id then some ⟨conditions, generation, a.call.now⟩ else none
  | _, _ => none

theorem reportOn?_of_request {a : Answered}
    (h : ∀ resource r, a.call.request ≠ .report resource r) (id : Uuid) :
    a.reportOn? id = none := by
  unfold reportOn?
  split
  · rename_i hrequest _
    exact absurd hrequest (h _ _)
  · rfl

theorem reportOn?_of_result {a : Answered}
    (h : ∀ status isNew, a.reply.result ≠ .ok (.outcome (.stored status isNew))) (id : Uuid) :
    a.reportOn? id = none := by
  unfold reportOn?
  split
  · rename_i hresult
    exact absurd hresult (h _ _)
  · rfl

theorem revisionOf?_of_request {a : Answered}
    (h : ∀ resource generation conditions,
      a.call.request ≠ .setConditions resource generation conditions)
    (id : Uuid) : a.revisionOf? id = none := by
  unfold revisionOf?
  split
  · rename_i hrequest _
    exact absurd hrequest (h _ _ _)
  · rfl

theorem revisionOf?_of_result {a : Answered}
    (h : ∀ updated, a.reply.result ≠ .ok (.resource updated)) (id : Uuid) :
    a.revisionOf? id = none := by
  unfold revisionOf?
  split
  · rename_i hresult
    exact absurd hresult (h _)
  · rfl

end Answered

/-- The reports that were stored in the row of an identity, in order. -/
def reportsOn (log : List Answered) (id : Uuid) : List StoredReport :=
  log.filterMap (·.reportOn? id)

/-- The settings of conditions for the resource of an identity, in order. -/
def revisionsOf (log : List Answered) (id : Uuid) : List Revision :=
  log.filterMap (·.revisionOf? id)

/-! ## What rows tell -/

/-- The row that stored reports make: the key and the time of creation are of the first, all else is
of the last, and the document is the one that follows all of them. -/
def rowOfReports (id : Uuid) (first last : StoredReport) (d : Document) (deletedTime : Cell) :
    StatusRow where
  id := .text id.toText
  resourceType := .text last.resource.kind
  resourceId := .text last.resource.id
  adapter := .text last.report.adapter
  observedGeneration := .int last.report.observedGeneration
  conditions := .text d.render
  data := .ofText? (last.report.data.map (·.render))
  metadata := .ofText? (last.report.metadata.map fun m => m.write.render)
  createdTime := .text first.stamp.toStorageText
  lastReportTime := .text last.stamp.toStorageText
  deletedTime := deletedTime

/-- A row of statuses is what the reports make that were stored in it. -/
def StatusRow.Tells (row : StatusRow) (id : Uuid) (reports : List StoredReport) : Prop :=
  ∃ first last d, reports.head? = some first ∧ reports.getLast? = some last ∧
    d.Follows (reports.map (·.revision)) ∧ Document.parse d.render = .ok d ∧
    row = rowOfReports id first last d row.deletedTime

/-- The conditions of a resource are what the settings of its conditions make, and are
none before the first. -/
def ResourceRow.Tells (row : ResourceRow) (id : Uuid) (revisions : List Revision) : Prop :=
  row.id = .text id.toText ∧ ∃ d,
    row.statusConditions = .text d.render ∧ Document.parse d.render = .ok d ∧
    ((revisions = [] ∧ d = .empty) ∨ d.Follows revisions)

/-! ## Rows that are written -/

theorem Store.stampFor_of_absent {s : Store} {key : StatusKey} (h : s.findStatus? key = none)
    (now : Instant) : s.stampFor key now = Report.stamp now none := by
  rw [stampFor, h]
  rfl

/-- The time that is read from the row of a key is the one that the stamp is compared with. -/
theorem Store.stampFor_of_found {s : Store} {key : StatusKey} {row : StatusRow}
    {previous : StatusRecord} (hfind : s.findStatus? key = some row) (hcolumns : row.Says previous)
    (now : Instant) : s.stampFor key now = Report.stamp now (some previous) := by
  obtain ⟨raw, hraw, hparse⟩ := hcolumns.lastReportTime
  rw [stampFor, hfind, Option.bind_some, StatusRow.lastReport?, hraw]
  simp only [hparse]
  rfl

namespace StatusRow

/-- The first report on a key makes a row of its own. -/
theorem tells_toRow {r : Report} (hnodup : (r.conditions.map (·.type)).Nodup)
    (resource : ResourceRef) (id : Uuid) (now : Instant) :
    ((r.writeOver now none).toRow id (.of resource r.adapter)).Tells id
      [⟨resource, r, Report.stamp now none⟩] := by
  let told : StoredReport := ⟨resource, r, Report.stamp now none⟩
  have hfollows := Document.remembers_none.follows told.revision
  have hparse := Document.parse_render_mergedOver
    (Document.hasDistinctTypes_sent hnodup r.observedGeneration told.stamp) none told.stamp
  exact ⟨told, told, _, rfl, rfl, hfollows, hparse, rfl⟩

/-- A further report on a key is told of as well. -/
theorem Tells.applyTo {row : StatusRow} {id : Uuid} {reports : List StoredReport}
    (h : row.Tells id reports) {resource : ResourceRef} {r : Report} {previous : StatusRecord}
    (hof : row.isOf (.of resource r.adapter) = true) (hcolumns : row.Says previous)
    (hnodup : (r.conditions.map (·.type)).Nodup) (now : Instant) :
    ((r.writeOver now (some previous)).applyTo row).Tells id
      (reports ++ [⟨resource, r, Report.stamp now (some previous)⟩]) := by
  obtain ⟨first, last, d, hfirst, -, hfollows, hparse, hrow⟩ := h
  let told : StoredReport := ⟨resource, r, Report.stamp now (some previous)⟩
  have hstored : previous.conditions = d.render := by
    have hconditions := hcolumns.conditions
    rw [hrow] at hconditions
    exact (Cell.text.inj hconditions).symm
  have hprevious : Document.previousOf ((some previous).map (·.conditions)) = some d := by
    rw [Option.map_some, hstored]
    exact Document.previousOf_some_of_parse hparse
  have hremembers := hfollows.remembers (Document.distinct_of_parse hparse)
  have hparse' := Document.parse_render_mergedOver
    (Document.hasDistinctTypes_sent hnodup r.observedGeneration told.stamp) (some d) told.stamp
  refine ⟨first, told, _, ?_, by simp [told], ?_, hparse', ?_⟩
  · rw [List.head?_append, hfirst, Option.some_or]
  · rw [List.map_append]
    exact hremembers.follows told.revision
  · obtain ⟨⟨htype, howner, hadapter⟩, -⟩ := isOf_iff.mp hof
    have hid : row.id = .text id.toText := congrArg StatusRow.id hrow
    have hcreated : row.createdTime = .text first.stamp.toStorageText :=
      congrArg StatusRow.createdTime hrow
    simp only [StatusWrite.applyTo, Report.writeOver, rowOfReports, hprevious, hid, htype,
      howner, hadapter, hcreated, StatusWrite.dataCell, StatusWrite.metadataCell]
    rfl

/-- A deletion changes nothing that the row tells. -/
theorem Tells.withoutOwner {row : StatusRow} {id : Uuid} {reports : List StoredReport}
    (h : row.Tells id reports) (resource : ResourceRef) (now : Instant) :
    (Store.Consistent.withoutOwner resource now row).Tells id reports := by
  unfold Store.Consistent.withoutOwner
  cases row.isAbout resource with
  | false => exact h
  | true =>
      obtain ⟨first, last, d, hfirst, hlast, hfollows, hparse, hrow⟩ := h
      refine ⟨first, last, d, hfirst, hlast, hfollows, hparse, ?_⟩
      rw [if_pos rfl, hrow]
      rfl

theorem Tells.id_eq {row : StatusRow} {id : Uuid} {reports : List StoredReport}
    (h : row.Tells id reports) : row.id = .text id.toText := by
  obtain ⟨first, last, d, -, -, -, -, hrow⟩ := h
  exact congrArg StatusRow.id hrow

end StatusRow

namespace ResourceRow

/-- A resource is created without conditions. -/
theorem tells_toRow (new : NewResource) (id : Uuid) (kind : String) (now : Instant) :
    (new.toRow id kind now).Tells id [] :=
  ⟨rfl, .empty, rfl, Document.parse_empty, .inl ⟨rfl, rfl⟩⟩

/-- A further setting of conditions is told of as well. -/
theorem Tells.withConditions {row : ResourceRow} {id : Uuid} {revisions : List Revision}
    (h : row.Tells id revisions) {raw : String} (htext : row.statusConditions = .text raw)
    {conditions : List ConditionInput} (hnodup : (conditions.map (·.type)).Nodup)
    (generation : Int64) (now : Instant) :
    (Store.withConditions (Document.setOver conditions generation now raw).render now row).Tells id
      (revisions ++ [⟨conditions, generation, now⟩]) := by
  obtain ⟨hid, d, hconditions, hparse, hhistory⟩ := h
  rw [htext] at hconditions
  cases hconditions
  have hremembers : Document.Remembers (some d) revisions := by
    obtain ⟨rfl, rfl⟩ | hfollows := hhistory
    · exact Document.remembers_empty
    · exact hfollows.remembers (Document.distinct_of_parse hparse)
  have hprevious := Document.previousOf_some_of_parse hparse
  refine ⟨hid, Document.setOver conditions generation now d.render, rfl, ?_, .inr ?_⟩
  · have hdistinct := Document.hasDistinctTypes_sent hnodup generation now
    exact Document.parse_render_mergedOver hdistinct _ now
  · rw [Document.setOver, hprevious]
    exact hremembers.follows ⟨conditions, generation, now⟩

theorem Tells.without {row : ResourceRow} {id : Uuid} {revisions : List Revision}
    (h : row.Tells id revisions) (resource : ResourceRef) (now : Instant) :
    (Store.Consistent.without resource now row).Tells id revisions := by
  unfold Store.Consistent.without
  cases row.isOf resource <;> exact h

end ResourceRow

/-! ## One more call -/

/-- The tables tell what a log says, and the log says nothing of rows that are not there. -/
structure Store.Tells (s : Store) (log : List Answered) : Prop where
  statuses : ∀ row ∈ s.statuses, ∃ id, row.Tells id (reportsOn log id)
  resources : ∀ row ∈ s.resources, ∃ id, row.Tells id (revisionsOf log id)
  reported : ∀ id, reportsOn log id ≠ [] → ∃ row ∈ s.statuses, row.id = .text id.toText
  revised : ∀ id, revisionsOf log id ≠ [] → ∃ row ∈ s.resources, row.id = .text id.toText

theorem reportsOn_snoc (log : List Answered) (a : Answered) (id : Uuid) :
    reportsOn (log ++ [a]) id = reportsOn log id ++ (a.reportOn? id).toList := by
  rw [reportsOn, List.filterMap_append]
  cases h : a.reportOn? id <;> simp [h, reportsOn]

theorem revisionsOf_snoc (log : List Answered) (a : Answered) (id : Uuid) :
    revisionsOf (log ++ [a]) id = revisionsOf log id ++ (a.revisionOf? id).toList := by
  rw [revisionsOf, List.filterMap_append]
  cases h : a.revisionOf? id <;> simp [h, revisionsOf]

theorem reportsOn_of_none {a : Answered} (h : ∀ id, a.reportOn? id = none)
    (log : List Answered) (id : Uuid) : reportsOn (log ++ [a]) id = reportsOn log id := by
  rw [reportsOn_snoc, h, Option.toList_none, List.append_nil]

/-- A report that is stored for one identity adds to what is told of that one. -/
theorem reportsOn_of_own {a : Answered} {own : Uuid} {report : StoredReport}
    (h : ∀ id, a.reportOn? id = if own = id then some report else none) (log : List Answered) :
    reportsOn (log ++ [a]) own = reportsOn log own ++ [report] := by
  rw [reportsOn_snoc, h, if_pos rfl]
  rfl

theorem reportsOn_of_other {a : Answered} {own id : Uuid} {report : StoredReport}
    (h : ∀ id, a.reportOn? id = if own = id then some report else none) (hother : own ≠ id)
    (log : List Answered) : reportsOn (log ++ [a]) id = reportsOn log id := by
  rw [reportsOn_snoc, h, if_neg hother, Option.toList_none, List.append_nil]

theorem revisionsOf_of_none {a : Answered} (h : ∀ id, a.revisionOf? id = none)
    (log : List Answered) (id : Uuid) : revisionsOf (log ++ [a]) id = revisionsOf log id := by
  rw [revisionsOf_snoc, h, Option.toList_none, List.append_nil]

/-- Conditions that are set for one identity add to what is told of that one. -/
theorem revisionsOf_of_own {a : Answered} {own : Uuid} {revision : Revision}
    (h : ∀ id, a.revisionOf? id = if own = id then some revision else none) (log : List Answered) :
    revisionsOf (log ++ [a]) own = revisionsOf log own ++ [revision] := by
  rw [revisionsOf_snoc, h, if_pos rfl]
  rfl

theorem revisionsOf_of_other {a : Answered} {own id : Uuid} {revision : Revision}
    (h : ∀ id, a.revisionOf? id = if own = id then some revision else none) (hother : own ≠ id)
    (log : List Answered) : revisionsOf (log ++ [a]) id = revisionsOf log id := by
  rw [revisionsOf_snoc, h, if_neg hother, Option.toList_none, List.append_nil]

namespace Store.Tells

variable {s : Store} {log : List Answered}

theorem start : Store.empty.Tells [] where
  statuses := by simp [Store.empty]
  resources := by simp [Store.empty]
  reported := by simp [reportsOn]
  revised := by simp [revisionsOf]

/-- A call that stores no report adds nothing to what the statuses tell. -/
theorem statuses_quiet (h : s.Tells log) {a : Answered} (hreport : ∀ id, a.reportOn? id = none) :
    (∀ row ∈ s.statuses, ∃ id, row.Tells id (reportsOn (log ++ [a]) id)) ∧
      ∀ id, reportsOn (log ++ [a]) id ≠ [] → ∃ row ∈ s.statuses, row.id = .text id.toText := by
  simp only [reportsOn_of_none hreport]
  exact ⟨h.statuses, h.reported⟩

/-- A call that sets no conditions adds nothing to what the resources tell. -/
theorem resources_quiet (h : s.Tells log) {a : Answered}
    (hrevision : ∀ id, a.revisionOf? id = none) :
    (∀ row ∈ s.resources, ∃ id, row.Tells id (revisionsOf (log ++ [a]) id)) ∧
      ∀ id, revisionsOf (log ++ [a]) id ≠ [] → ∃ row ∈ s.resources, row.id = .text id.toText := by
  simp only [revisionsOf_of_none hrevision]
  exact ⟨h.resources, h.revised⟩

theorem quiet (h : s.Tells log) {a : Answered} (hreport : ∀ id, a.reportOn? id = none)
    (hrevision : ∀ id, a.revisionOf? id = none) : s.Tells (log ++ [a]) := by
  obtain ⟨hstatuses, hreported⟩ := h.statuses_quiet hreport
  obtain ⟨hresources, hrevised⟩ := h.resources_quiet hrevision
  exact ⟨hstatuses, hresources, hreported, hrevised⟩

/-- A resource that is created starts with nothing told of it. -/
theorem created (h : s.Tells log) {new : NewResource} {id : Uuid} {kind : String} {now : Instant}
    (hfree : s.isTaken (new.toRow id kind now) = false) :
    (s.withResource (new.toRow id kind now)).Tells log where
  statuses := h.statuses
  reported := h.reported
  resources := by
    intro row hrow
    rcases List.mem_append.mp hrow with hrow | hrow
    · exact h.resources row hrow
    · have hnone : revisionsOf log id = [] := by
        by_contra hsome
        obtain ⟨r, hr, hid⟩ := h.revised id hsome
        exact (Consistent.not_isTaken_iff.mp hfree r hr).1 hid
      rw [List.mem_singleton.mp hrow]
      refine ⟨id, ?_⟩
      rw [hnone]
      exact ResourceRow.tells_toRow new id kind now
  revised := by
    intro id' hsome
    obtain ⟨row, hrow, hid⟩ := h.revised id' hsome
    exact ⟨row, List.mem_append_left _ hrow, hid⟩

theorem deleted (h : s.Tells log) (resource : ResourceRef) (now : Instant) :
    (s.markDeleted resource now).Tells log where
  statuses := by
    intro row' hrow'
    obtain ⟨row, hrow, rfl⟩ := List.mem_map.mp hrow'
    obtain ⟨id, htells⟩ := h.statuses row hrow
    exact ⟨id, htells.withoutOwner resource now⟩
  resources := by
    intro row' hrow'
    obtain ⟨row, hrow, rfl⟩ := List.mem_map.mp hrow'
    obtain ⟨id, htells⟩ := h.resources row hrow
    exact ⟨id, htells.without resource now⟩
  reported := by
    intro id hsome
    obtain ⟨row, hrow, hid⟩ := h.reported id hsome
    exact ⟨_, List.mem_map_of_mem hrow, (Consistent.id_withoutOwner resource now row).trans hid⟩
  revised := by
    intro id hsome
    obtain ⟨row, hrow, hid⟩ := h.revised id hsome
    exact ⟨_, List.mem_map_of_mem hrow, (Consistent.id_without resource now row).trans hid⟩

/-- Conditions that are set are told of by the one resource that they are set for. -/
theorem conditioned (h : s.Tells log) {written : List StatusKey}
    (hconsistent : s.Consistent written) {a : Answered} {resource : ResourceRef}
    {generation : Int64} {conditions : List ConditionInput} {raw : String}
    {row : ResourceRow} {updated : Resource}
    (hrequest : a.call.request = .setConditions resource generation conditions)
    (hresult : a.reply.result = .ok (.resource updated)) (hnodup : (conditions.map (·.type)).Nodup)
    (hfind : s.findResource? resource = some row) (htext : row.statusConditions = .text raw)
    (hid : ∃ idText, row.id = .text idText ∧ Uuid.parse? idText = some updated.id) :
    (s.setConditions resource (Document.setOver conditions generation a.call.now raw).render
      a.call.now).Tells (log ++ [a]) := by
  have hreport : ∀ id, a.reportOn? id = none := by
    intro id
    rw [Answered.reportOn?, hrequest]
  have hrevision : ∀ id, a.revisionOf? id =
      if updated.id = id then some ⟨conditions, generation, a.call.now⟩ else none := by
    intro id
    rw [Answered.revisionOf?, hrequest, hresult]
  have hrow : row ∈ s.resources := List.mem_of_find?_eq_some hfind
  have hof : row.isOf resource = true := findResource?_isOf hfind
  obtain ⟨ownId, hown⟩ := h.resources row hrow
  cases Uuid.eq_of_read hown.1 hid
  obtain ⟨hstatuses, hreported⟩ := h.statuses_quiet hreport
  refine ⟨hstatuses, ?_, hreported, ?_⟩
  · intro other' hother'
    obtain ⟨other, hother, rfl⟩ := List.mem_map.mp hother'
    by_cases hsame : other = row
    · refine ⟨updated.id, ?_⟩
      rw [hsame, revisionsOf_of_own hrevision, if_pos hof]
      exact hown.withConditions htext hnodup generation a.call.now
    · obtain ⟨id, htells⟩ := h.resources other hother
      obtain ⟨hdiffer, hforeign⟩ := hconsistent.foreign hrow hother hsame hof
      have hnot : updated.id ≠ id := by
        intro heq
        rw [htells.1, hown.1, heq] at hdiffer
        exact hdiffer rfl
      refine ⟨id, ?_⟩
      rw [revisionsOf_of_other hrevision hnot, if_neg hforeign]
      exact htells
  · intro id hsome
    by_cases hsame : updated.id = id
    · refine ⟨_, List.mem_map_of_mem hrow, ?_⟩
      rw [← hsame]
      exact (Consistent.conditioned_same resource _ _ row).1.trans hown.1
    · rw [revisionsOf_of_other hrevision hsame] at hsome
      obtain ⟨other, hother, hid⟩ := h.revised id hsome
      refine ⟨_, List.mem_map_of_mem hother, ?_⟩
      exact (Consistent.conditioned_same resource _ _ other).1.trans hid

/-- The first report on a key is told of by the row that it makes. -/
theorem inserted (h : s.Tells log) {a : Answered} {resource : ResourceRef} {r : Report}
    {id : Uuid} {now : Instant}
    (hreport : ∀ other, a.reportOn? other =
      if id = other then some ⟨resource, r, Report.stamp now none⟩ else none)
    (hrevision : ∀ other, a.revisionOf? other = none) (hnodup : (r.conditions.map (·.type)).Nodup)
    (hfresh : ∀ row ∈ s.statuses, row.id ≠ .text id.toText) :
    (s.withStatus ((r.writeOver now none).toRow id (.of resource r.adapter))).Tells
      (log ++ [a]) := by
  obtain ⟨hresources, hrevised⟩ := h.resources_quiet hrevision
  refine ⟨?_, hresources, ?_, hrevised⟩
  · intro row hrow
    rcases List.mem_append.mp hrow with hrow | hrow
    · obtain ⟨other, htells⟩ := h.statuses row hrow
      have hnot : id ≠ other := by
        rintro rfl
        exact hfresh row hrow htells.id_eq
      refine ⟨other, ?_⟩
      rw [reportsOn_of_other hreport hnot]
      exact htells
    · have hnone : reportsOn log id = [] := by
        by_contra hsome
        obtain ⟨old, hold, hid⟩ := h.reported id hsome
        exact hfresh old hold hid
      rw [List.mem_singleton.mp hrow]
      refine ⟨id, ?_⟩
      rw [reportsOn_of_own hreport, hnone]
      exact StatusRow.tells_toRow hnodup resource id now
  · intro other hsome
    by_cases hsame : id = other
    · exact ⟨_, List.mem_append_right _ List.mem_cons_self,
        congrArg (fun i : Uuid => Cell.text i.toText) hsame⟩
    · rw [reportsOn_of_other hreport hsame] at hsome
      obtain ⟨row, hrow, hid⟩ := h.reported other hsome
      exact ⟨row, List.mem_append_left _ hrow, hid⟩

/-- A further report on a key is told of by the one row of the key. -/
theorem overwritten (h : s.Tells log) {written : List StatusKey}
    (hconsistent : s.Consistent written) {a : Answered} {resource : ResourceRef} {r : Report}
    {row : StatusRow} {previous : StatusRecord} {now : Instant}
    (hreport : ∀ other, a.reportOn? other =
      if previous.id = other then some ⟨resource, r, Report.stamp now (some previous)⟩ else none)
    (hrevision : ∀ other, a.revisionOf? other = none) (hnodup : (r.conditions.map (·.type)).Nodup)
    (hfind : s.findStatus? (.of resource r.adapter) = some row) (hcolumns : row.Says previous) :
    (s.overwritten previous.id (r.writeOver now (some previous))).Tells (log ++ [a]) := by
  have hrow : row ∈ s.statuses := List.mem_of_find?_eq_some hfind
  have hnumbered := Consistent.isNumbered_of_read hconsistent.distinct hrow
    (findStatus?_isLive hfind) hcolumns
  obtain ⟨ownId, hown⟩ := h.statuses row hrow
  cases Uuid.eq_of_read hown.id_eq hcolumns.id
  obtain ⟨hresources, hrevised⟩ := h.resources_quiet hrevision
  refine ⟨?_, hresources, ?_, hrevised⟩
  · intro other' hother'
    obtain ⟨other, hother, rfl⟩ := List.mem_map.mp hother'
    by_cases hsame : other = row
    · refine ⟨previous.id, ?_⟩
      rw [hsame, if_pos hnumbered, reportsOn_of_own hreport]
      exact hown.applyTo (findStatus?_isOf hfind) hcolumns hnodup now
    · obtain ⟨id, htells⟩ := h.statuses other hother
      have hdiffer : other.id ≠ row.id := by
        intro heq
        exact hsame (hconsistent.distinct.eq_of_id hother hrow heq)
      have hnot : previous.id ≠ id := by
        intro heq
        rw [htells.id_eq, hown.id_eq, heq] at hdiffer
        exact hdiffer rfl
      have hforeign : ¬ isNumbered previous.id other = true := by
        intro hother
        simp only [isNumbered, Bool.and_eq_true, decide_eq_true_eq] at hother
        exact hdiffer (hother.1.trans hown.id_eq.symm)
      refine ⟨id, ?_⟩
      rw [if_neg hforeign, reportsOn_of_other hreport hnot]
      exact htells
  · intro id hsome
    by_cases heq : previous.id = id
    · refine ⟨_, List.mem_map_of_mem hrow, ?_⟩
      rw [← heq]
      exact (overwritten_same _ _ row).1.trans hown.id_eq
    · rw [reportsOn_of_other hreport heq] at hsome
      obtain ⟨other, hother, hid⟩ := h.reported id hsome
      refine ⟨_, List.mem_map_of_mem hother, ?_⟩
      exact (overwritten_same _ _ other).1.trans hid

/-- The identity that a status is answered with is the one that its row was read with. -/
theorem id_of_toStatus {record : StatusRecord} {status : AdapterStatus}
    (h : record.toStatus = .ok status) : status.id = record.id := by
  obtain ⟨d, -, rfl⟩ := StatusRecord.toStatus_eq_ok_iff.mp h
  rfl

/-- A report that is stored is told of by the row that it is stored in. -/
theorem stored (h : s.Tells log) {written : List StatusKey}
    (hconsistent : s.Consistent written) {a : Answered} {resource : ResourceRef} {r : Report}
    {spec : KindSpec} {draft : Store} {isNew : Bool} {row : StatusRow}
    {record : StatusRecord} {status : AdapterStatus} (hbefore : a.before = s)
    (hrequest : a.call.request = .report resource r)
    (hresult : a.reply.result = .ok (.outcome (.stored status isNew)))
    (hwrites : Writes (Board.planner spec r a.call.now) (.of resource r.adapter) a.call.freshId s
      draft isNew)
    (hfind : draft.findStatus? (.of resource r.adapter) = some row)
    (hread : StatusRecord.ofRow row = .ok record)
    (hstatus : record.toStatus = .ok status) : draft.Tells (log ++ [a]) := by
  have hreport : ∀ id, a.reportOn? id =
      if record.id = id then
        some ⟨resource, r, s.stampFor (.of resource r.adapter) a.call.now⟩ else none := by
    intro id
    rw [Answered.reportOn?, hrequest, hresult, ← id_of_toStatus hstatus, hbefore]
  have hrevision : ∀ id, a.revisionOf? id = none := by
    intro id
    rw [Answered.revisionOf?, hrequest]
  have hread := (StatusRecord.says_of_ofRow hread).id
  cases hwrites with
  | insert plan fresh absent =>
      obtain ⟨-, hnodup, rfl⟩ := Board.planner_eq_write_iff.mp plan
      rw [findStatus?_withStatus absent] at hfind
      cases hfind
      rw [stampFor_of_absent absent, Uuid.eq_of_read rfl hread] at hreport
      exact h.inserted hreport hrevision hnodup fresh
  | @update _ _ old previous plan found read numbered =>
      obtain ⟨-, hnodup, rfl⟩ := Board.planner_eq_write_iff.mp plan
      have hcolumns := StatusRecord.says_of_ofRowForUpdate read
      obtain ⟨raw, hraw, hprevious⟩ := hcolumns.id
      have hid : record.id = previous.id := by
        rw [findStatus?_overwritten, found, Option.map_some] at hfind
        have hsame : row.id = .text raw := by
          rw [← hraw, ← Option.some.inj hfind]
          exact (overwritten_same _ _ old).1
        have hrecord := Cell.read_eq hsame hread
        exact Option.some.inj (hrecord.symm.trans hprevious)
      rw [stampFor_of_found found hcolumns, hid] at hreport
      exact h.overwritten hconsistent hreport hrevision hnodup found hcolumns

/-- Whatever a call comes to, the tables tell of it what they have to. -/
theorem answer (h : s.Tells log) {written : List StatusKey}
    (hconsistent : s.Consistent written) (b : Board) (c : Call) :
    (b.answer s c).store.Tells (log ++ [⟨s, c, b.answer s c⟩]) := by
  have hends := b.ends_answer c s
  generalize b.answer s c = reply at hends
  cases hends with
  | failed e =>
      exact h.quiet (Answered.reportOn?_of_result (by simp))
        (Answered.revisionOf?_of_result (by simp))
  | discarded reason =>
      exact h.quiet (Answered.reportOn?_of_result (by simp))
        (Answered.revisionOf?_of_result (by simp))
  | read response hread =>
      have hreport : ∀ resource r, c.request ≠ .report resource r := by
        intro resource r hrequest
        rw [hrequest] at hread
        cases hread
      have hset : ∀ resource generation conditions,
          c.request ≠ .setConditions resource generation conditions := by
        intro resource generation conditions hrequest
        rw [hrequest] at hread
        cases hread
      exact h.quiet (Answered.reportOn?_of_request hreport) (Answered.revisionOf?_of_request hset)
  | created hrequest hvalid hfree hread =>
      refine (h.created hfree).quiet (Answered.reportOn?_of_request ?_)
        (Answered.revisionOf?_of_request ?_)
      · simp [hrequest]
      · simp [hrequest]
  | @deleted resource hrequest hlive =>
      exact (h.deleted resource c.now).quiet (Answered.reportOn?_of_result (by simp))
        (Answered.revisionOf?_of_result (by simp))
  | conditioned hrequest hnodup hfind htext hread =>
      have hid := (Resource.ofRow_eq_ok_iff.mp hread).id
      exact h.conditioned (a := ⟨s, c, _⟩) hconsistent hrequest rfl hnodup hfind htext hid
  | stored hrequest howner hwrites hfind hread hstatus =>
      exact h.stored (a := ⟨s, c, _⟩) hconsistent rfl hrequest rfl hwrites hfind hread hstatus
  | @unreadable _ _ _ draft _ _ _ _ hrequest hspec hvalid hcancel howner hwrites hfind
      hread hunreadable =>
      have hsame : draft = s := by
        by_contra hchanged
        exact hconsistent.not_goesAstray (Board.goesAstray_of_unreadable hrequest hspec
          hvalid hcancel howner hwrites hfind hread hunreadable hchanged)
      rw [hsame]
      exact h.quiet (Answered.reportOn?_of_result (by simp))
        (Answered.revisionOf?_of_result (by simp))

end Store.Tells

/-! ## All calls -/

/-- Calls lead to stores whose tables agree. -/
theorem Board.consistent_run (b : Board) (calls : List Call) :
    ∃ written, (b.run calls).1.Consistent written := by
  induction calls using List.reverseRecOn with
  | nil => exact ⟨[], .empty⟩
  | append_singleton calls c ih =>
      obtain ⟨written, hconsistent⟩ := ih
      rw [b.run_snoc]
      exact ⟨_, hconsistent.request_step b c⟩

/-- Calls lead to tables that tell of them. -/
theorem Board.tells_run (b : Board) (calls : List Call) :
    (b.run calls).1.Tells (b.run calls).2 := by
  induction calls using List.reverseRecOn with
  | nil => exact .start
  | append_singleton calls c ih =>
      obtain ⟨written, hconsistent⟩ := b.consistent_run calls
      rw [b.run_snoc]
      exact ih.answer hconsistent b c

/-- After any calls, a row of statuses is what the reports make that were stored in it, and its
document tells since when each of its conditions has been there and has had its status; the
conditions of a resource are what the settings of its conditions make.  Calls that stored nothing in
a row leave no trace in it. -/
theorem Board.documents_tell_history (b : Board) (calls : List Call) :
    (∀ row ∈ (b.run calls).1.statuses, ∃ id, row.Tells id (reportsOn (b.run calls).2 id)) ∧
      ∀ row ∈ (b.run calls).1.resources, ∃ id, row.Tells id (revisionsOf (b.run calls).2 id) :=
  ⟨(b.tells_run calls).statuses, (b.tells_run calls).resources⟩

end StatusBoard

import StatusBoard.Proofs.Condition.Checks
import StatusBoard.Proofs.Service.Answers
set_option autoImplicit false

/-!
# Service: what is left of a call that failed

A call that fails, and a report that is discarded, leave the tables as they were, with one
exception.  A report overwrites rows by the written form of the identity that it read from its key's
row.  If that row was edited by hand so that its identity stands there in another form, the writing
misses it.  Should another live row have the written form, the report overwrites that one, finds its
own row unchanged, and is answered with an error if the conditions there cannot be read, though the
other row is lost by then.
-/

namespace StatusBoard

/-- The answer says that nothing was done. -/
def Reply.isFruitless (r : Reply Response) : Bool :=
  match r.result with
  | .error _ => true
  | .ok (.outcome (.discarded _)) => true
  | .ok _ => false

theorem nodup_of_validate {r : Report} (h : r.validate = .ok ()) :
    (r.conditions.map (·.type)).Nodup :=
  (checkInputs_eq_ok_iff.mp (Report.validate_eq_ok_iff.mp h).2.2).2

namespace Board

/-- A report that overwrites another row than the one that its key has, and then
cannot read that one. -/
structure GoesAstray (b : Board) (c : Call) (s : Store) (resource : ResourceRef) (r : Report)
    (row : StatusRow) (record : StatusRecord) : Prop where
  request : c.request = .report resource r
  cancel : c.cancel = .never
  gate : ∃ spec, b.resolve resource.kind = .ok spec ∧
    passesMandatory r.conditions spec.mandatory = .ok ()
  valid : r.validate = .ok ()
  owner : (s.findResource? resource).isSome = true
  found : s.findStatus? (.of resource r.adapter) = some row
  read : StatusRecord.ofRow row = .ok record
  /-- The identity of the row is not in its written form. -/
  misspelt : row.id ≠ .text record.id.toText
  unreadable : ∃ e, Document.parse record.conditions = .error e
  /-- Another live row has the written form for its identity. -/
  other : ∃ other ∈ s.statuses, Store.isNumbered record.id other = true ∧
    (r.writeOver c.now (some record)).applyTo other ≠ other

theorem isNumbered_eq_false {row : StatusRow} {id : Uuid} (h : row.id ≠ .text id.toText) :
    Store.isNumbered id row = false := by
  simp [Store.isNumbered, h]

/-- A report whose row has its identity not in the written form overwrites the rows that have it,
and is answered with its own row as it was. -/
theorem answer_of_misspelt {b : Board} {c : Call} {s : Store} {resource : ResourceRef} {r : Report}
    {spec : KindSpec} {row other : StatusRow} {record : StatusRecord}
    (hrequest : c.request = .report resource r) (hcancel : c.cancel = .never)
    (hspec : b.resolve resource.kind = .ok spec)
    (hgate : passesMandatory r.conditions spec.mandatory = .ok ()) (hvalid : r.validate = .ok ())
    (howner : (s.findResource? resource).isSome = true)
    (hfound : s.findStatus? (.of resource r.adapter) = some row)
    (hread : StatusRecord.ofRow row = .ok record) (hmisspelt : row.id ≠ .text record.id.toText)
    (hother : other ∈ s.statuses) (hnumbered : Store.isNumbered record.id other = true) :
    b.answer s c = handle.wrap
      (reply ⟨s.overwritten record.id (r.writeOver c.now (some record)), .ok (.updated record)⟩
        (reportOutcome spec r)) .outcome := by
  have hplan := planner_of_open hgate (nodup_of_validate hvalid) c.now [] (some record)
  have hfind : (s.overwritten record.id (r.writeOver c.now (some record))).findStatus?
      (.of resource r.adapter) = some row := by
    rw [Store.findStatus?_overwritten, hfound, Option.map_some, isNumbered_eq_false hmisspelt]
    rfl
  have howner' : (s.findResource? (StatusKey.of resource r.adapter).owner).isSome = true := howner
  rw [answer_report s hrequest hspec hvalid, hcancel,
    Store.upsertStatus_of_found c.freshId (fun _ => .clear) howner' hfound
      (StatusRecord.ofRowForUpdate_of_ofRow hread) hplan
      (List.any_eq_true.mpr ⟨other, hother, hnumbered⟩) hfind hread]
  rfl

/-- A report that goes astray is answered with an error after it has overwritten the other row. -/
theorem GoesAstray.answer_eq {b : Board} {c : Call} {s : Store}
    {resource : ResourceRef} {r : Report} {row : StatusRow} {record : StatusRecord}
    (h : b.GoesAstray c s resource r row record) :
    ∃ e, b.answer s c =
      ⟨s.overwritten record.id (r.writeOver c.now (some record)),
        .error (.unreadableStatus e)⟩ := by
  obtain ⟨spec, hspec, hgate⟩ := h.gate
  obtain ⟨e, hunreadable⟩ := h.unreadable
  obtain ⟨other, hother, hnumbered, -⟩ := h.other
  have hstatus : record.toStatus = .error e := StatusRecord.toStatus_eq_error_iff.mpr hunreadable
  refine ⟨e, ?_⟩
  rw [answer_of_misspelt h.request h.cancel hspec hgate h.valid h.owner h.found h.read h.misspelt
    hother hnumbered]
  simp [handle.wrap, reply, reportOutcome, readStatus, hstatus, Except.bind, bind, Except.map]

theorem conditions_of_applyTo {row : StatusRow} {w : StatusWrite} {record : StatusRecord}
    (h : StatusRecord.ofRow (w.applyTo row) = .ok record) : record.conditions = w.conditions :=
  (Cell.text.inj (StatusRecord.says_of_ofRow h).conditions).symm

/-- What a report wrote is found again and has readable conditions, unless the report
went astray. -/
theorem goesAstray_of_unreadable {b : Board} {c : Call} {s draft : Store}
    {resource : ResourceRef} {r : Report} {spec : KindSpec} {inserted : Bool} {row : StatusRow}
    {record : StatusRecord} {e : DocumentError}
    (hrequest : c.request = .report resource r) (hspec : b.resolve resource.kind = .ok spec)
    (hvalid : r.validate = .ok ()) (hcancel : c.cancel = .never)
    (howner : (s.findResource? resource).isSome = true)
    (hwrites :
      Store.Writes (planner spec r c.now) (.of resource r.adapter) c.freshId s draft inserted)
    (hfind : draft.findStatus? (.of resource r.adapter) = some row)
    (hread : StatusRecord.ofRow row = .ok record)
    (hunreadable : Document.parse record.conditions = .error e) (hchanged : draft ≠ s) :
    b.GoesAstray c s resource r row record := by
  cases hwrites with
  | @insert earlier w hplan hfresh habsent =>
      obtain ⟨-, hnodup, rfl⟩ := planner_eq_write_iff.mp hplan
      rw [Store.findStatus?_withStatus habsent] at hfind
      cases hfind
      have hconditions := Cell.text.inj (StatusRecord.says_of_ofRow hread).conditions
      rw [← hconditions, Report.parse_writeOver hnodup] at hunreadable
      cases hunreadable
  | @update earlier w row' previous hplan hfound hread' hnumbered =>
      obtain ⟨hgate, hnodup, rfl⟩ := planner_eq_write_iff.mp hplan
      rw [Store.findStatus?_overwritten, hfound, Option.map_some] at hfind
      cases hown : Store.isNumbered previous.id row' with
      | true =>
          simp only [hown, if_true, Option.some.injEq] at hfind
          rw [← hfind] at hread
          rw [conditions_of_applyTo hread, Report.parse_writeOver hnodup] at hunreadable
          cases hunreadable
      | false =>
          simp only [hown, Bool.false_eq_true, if_false, Option.some.injEq] at hfind
          cases hfind
          rw [StatusRecord.ofRowForUpdate_of_ofRow hread] at hread'
          cases hread'
          have hlive : row.isLive = true := Store.findStatus?_isLive hfound
          have hmisspelt : row.id ≠ .text record.id.toText := by
            intro hid
            simp [Store.isNumbered, hid, hlive] at hown
          exact ⟨hrequest, hcancel, ⟨spec, hspec, hgate⟩, hvalid, howner, hfound, hread, hmisspelt,
            ⟨e, hunreadable⟩, Store.overwritten_ne_iff.mp hchanged⟩

/-- A call of which nothing is said to be done has changed the tables only if it is a
report that went astray. -/
theorem goesAstray_of_changed {b : Board} {c : Call} {s : Store}
    (hfruitless : (b.answer s c).isFruitless = true) (hchanged : (b.answer s c).store ≠ s) :
    ∃ resource r row record, b.GoesAstray c s resource r row record := by
  have hends := b.ends_answer c s
  generalize b.answer s c = reply at hends hfruitless hchanged
  cases hends with
  | failed e => exact absurd rfl hchanged
  | discarded reason => exact absurd rfl hchanged
  | read response hread => exact absurd rfl hchanged
  | created _ _ _ _ => cases hfruitless
  | deleted _ _ => cases hfruitless
  | conditioned _ _ _ _ _ => cases hfruitless
  | stored _ _ _ _ _ _ => cases hfruitless
  | unreadable hrequest hspec hvalid hcancel howner hwrites hfind hread hunreadable =>
      exact ⟨_, _, _, _, goesAstray_of_unreadable hrequest hspec hvalid hcancel howner
        hwrites hfind hread hunreadable hchanged⟩

/-- A call that fails, or a report that is discarded, leaves the tables as they were, whatever they
hold, unless it is a report that goes astray. -/
theorem leaves_no_trace_iff (b : Board) (c : Call) (s : Store) :
    ((b.answer s c).isFruitless = true → (b.answer s c).store = s) ↔
      ¬ ∃ resource r row record, b.GoesAstray c s resource r row record := by
  constructor
  · rintro hsame ⟨resource, r, row, record, h⟩
    obtain ⟨e, hanswer⟩ := h.answer_eq
    rw [hanswer] at hsame
    exact Store.overwritten_ne_iff.mpr h.other (hsame rfl)
  · intro hnone hfruitless
    by_cases hchanged : (b.answer s c).store = s
    · exact hchanged
    · exact absurd (goesAstray_of_changed hfruitless hchanged) hnone

/-! ## A report that goes astray -/

/-- A board of the reference kinds. -/
def sampleBoard : Board :=
  ⟨.reference, ⟨20, 100⟩⟩

/-- An identity that no row has yet. -/
def sampleId : Uuid :=
  .numbered (Fin.last 15) 1

/-- A status of the one resource. -/
def strayRow (id adapter conditions : String) : StatusRow where
  id := .text id
  resourceType := .text "Cluster"
  resourceId := .text "00000000-0000-4000-8000-000000000001"
  adapter := .text adapter
  observedGeneration := .int 1
  conditions := .text conditions
  data := .null
  metadata := .null
  createdTime := .text "2026-02-01T08:00:00.000000Z"
  lastReportTime := .text "2026-02-01T08:00:00.000000Z"

/-- The row of the adapter `a2` has been given the identity of the other row, in braces, and
conditions that are no JSON. -/
def strayStore : Store where
  resources := [{
    id := .text "00000000-0000-4000-8000-000000000001"
    kind := .text "Cluster"
    name := .text "c1"
    labels := .text "\x7b\x7d"
    spec := .text "null"
    generation := .int 1
    statusConditions := .text "[]"
    createdTime := .text "2026-02-01T08:00:00.000000Z"
    updatedTime := .text "2026-02-01T08:00:00.000000Z" }]
  statuses := [strayRow "00000000-0000-4000-8000-000000abcdef" "a1" "[]",
               strayRow "\x7b00000000-0000-4000-8000-000000abcdef\x7d" "a2" "x"]

/-- A report by `a2` with all that is mandatory. -/
def strayCall : Call where
  now := default
  freshId := default
  cancel := .never
  request := .report ⟨"Cluster", "00000000-0000-4000-8000-000000000001"⟩ {
    adapter := "a2"
    observedGeneration := 1
    conditions := KindRegistry.usualMandatory.map fun type => { type, status := .holds } }

/-- The report fails, and the row of `a1` is overwritten. -/
theorem stray_report_leaves_trace :
    ¬ ((sampleBoard.answer strayStore strayCall).isFruitless = true →
      (sampleBoard.answer strayStore strayCall).store = strayStore) := by
  decide +kernel

end Board
end StatusBoard

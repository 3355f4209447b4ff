import StatusBoard.Proofs.Kind
import StatusBoard.Proofs.Service.Timeline
import StatusBoard.Proofs.Store.Reading
set_option autoImplicit false

/-!
# Service: how reports are decided on

A report is refused, finds no resource, is discarded, or is stored, and a table says which: by the
report, the mandatory types of its kind, and what is stored.  Refusals name the first fault in the
order of the checks, and discarded reports are told all that they fall short of.  A row keeps data as a
text; data that nests too deep to be read again from it fails the report, which is not stored then.
-/

namespace StatusBoard

/-! ## Faults -/

namespace Report

/-- What is wrong with a report on a resource, which is the first fault in this order. -/
inductive HasFault (kinds : KindRegistry) (resource : ResourceRef) (r : Report) :
    ValidationError → Prop where
  | unknownKind (hkind : resource.kind ∉ Dict.keys kinds.kinds) :
      HasFault kinds resource r (.unknownKind resource.kind)
  | blankAdapter (hkind : resource.kind ∈ Dict.keys kinds.kinds)
      (hadapter : Text.isAllBlank r.adapter = true) :
      HasFault kinds resource r (.emptyField "adapter")
  | negativeGeneration (hkind : resource.kind ∈ Dict.keys kinds.kinds)
      (hadapter : Text.isAllBlank r.adapter = false) (hgeneration : r.observedGeneration < 0) :
      HasFault kinds resource r (.negativeGeneration r.observedGeneration)
  /-- The first type that is not in Pascal case. -/
  | misshapenType {before after : List ConditionInput} {c : ConditionInput}
      (hkind : resource.kind ∈ Dict.keys kinds.kinds)
      (hadapter : Text.isAllBlank r.adapter = false) (hgeneration : 0 ≤ r.observedGeneration)
      (hsplit : r.conditions = before ++ c :: after)
      (hbefore : ∀ other ∈ before, isPascalCase other.type = true)
      (htype : isPascalCase c.type = false) :
      HasFault kinds resource r (.invalidConditionType c.type)
  /-- The first type that stands there a second time. -/
  | repeatedType {before after : List ConditionInput} {c : ConditionInput}
      (hkind : resource.kind ∈ Dict.keys kinds.kinds)
      (hadapter : Text.isAllBlank r.adapter = false) (hgeneration : 0 ≤ r.observedGeneration)
      (hshapes : ∀ c ∈ r.conditions, isPascalCase c.type = true)
      (hsplit : r.conditions = before ++ c :: after) (hbefore : (before.map (·.type)).Nodup)
      (htype : c.type ∈ before.map (·.type)) :
      HasFault kinds resource r (.duplicateConditionType c.type)

/-- The checks find what is wrong. -/
theorem hasFault_iff {kinds : KindRegistry} {resource : ResourceRef} {r : Report}
    {e : ValidationError} :
    r.HasFault kinds resource e ↔ kinds.resolve resource.kind = .error e ∨
      (∃ spec, kinds.resolve resource.kind = .ok spec) ∧ r.validate = .error e := by
  have hknown : (∃ spec, kinds.resolve resource.kind = .ok spec) ↔
      resource.kind ∈ Dict.keys kinds.kinds := by
    cases hresolve : kinds.resolve resource.kind with
    | error found =>
        have habsent := (KindRegistry.resolve_eq_error_iff.mp hresolve).1
        simp [habsent]
    | ok spec =>
        refine iff_of_true ⟨spec, rfl⟩ ?_
        by_contra habsent
        cases hresolve.symm.trans (KindRegistry.resolve_eq_error_iff.mpr ⟨habsent, rfl⟩)
  rw [hknown, KindRegistry.resolve_eq_error_iff, validate_eq_error_iff, checkInputs_eq_error_iff]
  constructor
  · intro h
    cases h with
    | unknownKind hkind => exact .inl ⟨hkind, rfl⟩
    | blankAdapter hkind hadapter => exact .inr ⟨hkind, .inl ⟨hadapter, rfl⟩⟩
    | negativeGeneration hkind hadapter hgeneration =>
        exact .inr ⟨hkind, .inr (.inl ⟨hadapter, hgeneration, rfl⟩)⟩
    | misshapenType hkind hadapter hgeneration hsplit hbefore htype =>
        exact .inr ⟨hkind, .inr (.inr ⟨hadapter, hgeneration,
          .inl ⟨_, _, _, hsplit, hbefore, htype, rfl⟩⟩)⟩
    | repeatedType hkind hadapter hgeneration hshapes hsplit hbefore htype =>
        exact .inr ⟨hkind, .inr (.inr ⟨hadapter, hgeneration,
          .inr ⟨hshapes, _, _, _, hsplit, hbefore, htype, rfl⟩⟩)⟩
  · rintro (⟨hkind, rfl⟩ | ⟨hkind, ⟨hadapter, rfl⟩ | ⟨hadapter, hgeneration, rfl⟩ |
      ⟨hadapter, hgeneration, ⟨_, _, _, hsplit, hbefore, htype, rfl⟩ |
        ⟨hshapes, _, _, _, hsplit, hbefore, htype, rfl⟩⟩⟩)
    · exact .unknownKind hkind
    · exact .blankAdapter hkind hadapter
    · exact .negativeGeneration hkind hadapter hgeneration
    · exact .misshapenType hkind hadapter hgeneration hsplit hbefore htype
    · exact .repeatedType hkind hadapter hgeneration hshapes hsplit hbefore htype

/-- Nothing is wrong with the report. -/
def IsFaultless (kinds : KindRegistry) (resource : ResourceRef) (r : Report) : Prop :=
  ∀ e, ¬ r.HasFault kinds resource e

theorem HasFault.unique {kinds : KindRegistry} {resource : ResourceRef} {r : Report}
    {e e' : ValidationError} (h : r.HasFault kinds resource e) (h' : r.HasFault kinds resource e') :
    e = e' := by
  rw [hasFault_iff] at h h'
  rcases h with h | ⟨⟨spec, hspec⟩, h⟩
  · rcases h' with h' | ⟨⟨spec, hspec⟩, -⟩
    · exact Except.error.inj (h.symm.trans h')
    · cases h.symm.trans hspec
  · rcases h' with h' | ⟨-, h'⟩
    · cases h'.symm.trans hspec
    · exact Except.error.inj (h.symm.trans h')

theorem isFaultless_iff {kinds : KindRegistry} {resource : ResourceRef} {r : Report} :
    r.IsFaultless kinds resource ↔
      ∃ spec, kinds.resolve resource.kind = .ok spec ∧ r.validate = .ok () := by
  simp only [IsFaultless, hasFault_iff]
  cases kinds.resolve resource.kind with
  | error e => simp
  | ok spec => cases r.validate <;> simp

/-! ## The table -/

/-- Some type that is mandatory for the kind is not reported, or is reported as not known. -/
def FallsShort (kinds : KindRegistry) (kind : String) (r : Report) : Prop :=
  ∃ type, kinds.Mandates kind type ∧
    (ConditionInput.IsAbsent r.conditions type ∨ ConditionInput.IsUnknown r.conditions type)

/-- The table by which a report on a resource is decided on. -/
structure Decides (kinds : KindRegistry) (s : Store) (resource : ResourceRef) (r : Report)
    (result : Except ServiceError Response) : Prop where
  invalid : ∀ e, result = .error (.invalid e) ↔ r.HasFault kinds resource e
  notFound : result = .error (.notFound (.resource resource)) ↔
    r.IsFaultless kinds resource ∧ ¬ s.Shows resource
  discarded : (∃ reason, result = .ok (.outcome (.discarded reason))) ↔
    r.IsFaultless kinds resource ∧ s.Shows resource ∧ r.FallsShort kinds resource.kind
  reason : ∀ reason, result = .ok (.outcome (.discarded reason)) →
    reason.Accounts r.conditions (kinds.Mandates resource.kind)
  stored : ∀ isNew, (∃ status, result = .ok (.outcome (.stored status isNew))) ↔
    r.IsFaultless kinds resource ∧ s.Shows resource ∧ ¬ r.FallsShort kinds resource.kind ∧
      r.IsReadable ∧ (isNew = true ↔ ¬ s.Keeps (.of resource r.adapter))
  unreadable : result = .error (.corrupt (.json "adapter status data")) ↔
    r.IsFaultless kinds resource ∧ s.Shows resource ∧ ¬ r.FallsShort kinds resource.kind ∧
      ¬ r.IsReadable
  nothingElse : (∃ e, result = .error (.invalid e)) ∨
    result = .error (.notFound (.resource resource)) ∨
    (∃ reason, result = .ok (.outcome (.discarded reason))) ∨
    (∃ status isNew, result = .ok (.outcome (.stored status isNew))) ∨
    result = .error (.corrupt (.json "adapter status data"))

namespace Decides

variable {kinds : KindRegistry} {s : Store} {resource : ResourceRef} {r : Report}

theorem of_fault {e : ValidationError} (h : r.HasFault kinds resource e) :
    r.Decides kinds s resource (.error (.invalid e)) := by
  have hfaulty : ¬ r.IsFaultless kinds resource := fun hfaultless => hfaultless e h
  have hinvalid : ∀ e', e = e' ↔ r.HasFault kinds resource e' :=
    fun e' => ⟨fun heq => heq ▸ h, h.unique⟩
  have hsome : ∃ e, r.HasFault kinds resource e := ⟨e, h⟩
  constructor <;> simp [hfaulty, hinvalid, hsome]

theorem of_missing (h : r.IsFaultless kinds resource) (hmissing : ¬ s.Shows resource) :
    r.Decides kinds s resource (.error (.notFound (.resource resource))) := by
  have hfault : ∀ e, ¬ r.HasFault kinds resource e := h
  constructor <;> simp [h, hmissing, hfault]

theorem of_shortfall (h : r.IsFaultless kinds resource) (hshows : s.Shows resource)
    (hshort : r.FallsShort kinds resource.kind) {reason : Rejection}
    (hreason : reason.Accounts r.conditions (kinds.Mandates resource.kind)) :
    r.Decides kinds s resource (.ok (.outcome (.discarded reason))) := by
  have hfault : ∀ e, ¬ r.HasFault kinds resource e := h
  constructor <;> simp [h, hshows, hshort, hreason, hfault]

theorem of_written (h : r.IsFaultless kinds resource) (hshows : s.Shows resource)
    (hsettled : ¬ r.FallsShort kinds resource.kind) (hreadable : r.IsReadable) {isNew : Bool}
    (hnew : isNew = true ↔ ¬ s.Keeps (.of resource r.adapter)) (status : AdapterStatus) :
    r.Decides kinds s resource (.ok (.outcome (.stored status isNew))) := by
  have hfault : ∀ e, ¬ r.HasFault kinds resource e := h
  have hsame : ∀ other, isNew = other ↔ (other = true ↔ ¬ s.Keeps (.of resource r.adapter)) := by
    intro other
    rw [← hnew]
    cases isNew <;> cases other <;> simp
  constructor <;> simp [h, hshows, hsettled, hreadable, hsame, hfault, em]

theorem of_unreadable (h : r.IsFaultless kinds resource) (hshows : s.Shows resource)
    (hsettled : ¬ r.FallsShort kinds resource.kind) (hunreadable : ¬ r.IsReadable) :
    r.Decides kinds s resource (.error (.corrupt (.json "adapter status data"))) := by
  have hfault : ∀ e, ¬ r.HasFault kinds resource e := h
  constructor <;> simp [h, hshows, hsettled, hunreadable, hfault]

end Decides
end Report

/-! ## What is written can be kept -/

/-- The time of the last report in any row is of a year that rows have room for. -/
theorem Store.Tells.years_of_read {s : Store} {log : List Answered} (h : s.Tells log)
    {row : StatusRow} (hrow : row ∈ s.statuses) {previous : StatusRecord}
    (hcolumns : row.Says previous) :
    0 ≤ previous.lastReportTime.date.year ∧ previous.lastReportTime.date.year ≤ 9999 := by
  obtain ⟨id, first, last, d, -, -, -, -, htold⟩ := h.statuses row hrow
  have hstamp : row.lastReportTime = .text last.stamp.toStorageText :=
    congrArg StatusRow.lastReportTime htold
  exact Instant.years_of_parseStrict? (Cell.read_eq hstamp hcolumns.lastReportTime)

/-- A report is written at a time of a year that rows have room for, if both the clock and the last
report are. -/
theorem Report.years_writeOver (r : Report) {now : Instant}
    (hnow : 0 ≤ now.date.year ∧ now.date.year ≤ 9999) (existing : Option StatusRecord)
    (hexisting : ∀ previous ∈ existing,
      0 ≤ previous.lastReportTime.date.year ∧ previous.lastReportTime.date.year ≤ 9999) :
    0 ≤ (r.writeOver now existing).now.date.year ∧ (r.writeOver now existing).now.date.year ≤ 9999 := by
  cases existing with
  | none => exact hnow
  | some previous =>
      have hprevious := hexisting previous rfl
      simp only [writeOver, stamp, Instant.latest]
      split
      · exact hprevious
      · exact hnow

/-! ## One report -/

namespace Board

variable {b : Board} {c : Call} {s : Store} {resource : ResourceRef} {r : Report} {spec : KindSpec}

/-- A report on a resource that is not there finds none. -/
theorem answer_of_missing (hrequest : c.request = .report resource r)
    (hspec : b.resolve resource.kind = .ok spec) (hvalid : r.validate = .ok ())
    (hcancel : c.cancel ≠ .before) (hmissing : s.findResource? resource = none) :
    b.answer s c = ⟨s, .error (.notFound (.resource resource))⟩ := by
  have howner : s.findResource? (StatusKey.of resource r.adapter).owner = none := hmissing
  rw [answer_report s hrequest hspec hvalid, Store.upsertStatus_of_missing hcancel howner]
  rfl

/-- A report gets as far as the gate: nothing is wrong with it, and its resource is there. -/
structure AtGate (b : Board) (c : Call) (s : Store) (resource : ResourceRef) (r : Report)
    (spec : KindSpec) : Prop where
  request : c.request = .report resource r
  spec : b.resolve resource.kind = .ok spec
  valid : r.validate = .ok ()
  cancel : c.cancel = .never
  owner : (s.findResource? (StatusKey.of resource r.adapter).owner).isSome = true

namespace AtGate

/-- A report that does not pass the gate is discarded, for all that it falls short of. -/
theorem answer_of_closed (h : b.AtGate c s resource r spec)
    (hclosed : passesMandatory r.conditions spec.mandatory ≠ .ok ()) {written : List StatusKey}
    (hconsistent : s.Consistent written) :
    (b.answer s c).result = .ok (.outcome (.discarded (shortfall r.conditions spec.mandatory))) := by
  obtain ⟨existing, hexisting⟩ := hconsistent.getStatusForUpdate (.of resource r.adapter)
  rw [answer_report s h.request h.spec h.valid, h.cancel, Store.upsertStatus_of_skip c.freshId _
    h.owner hexisting (planner_of_closed hclosed c.now [] existing)]
  rfl

/-- A report whose upsert ends with a record is stored if the record is one of a report. -/
theorem answer_of_upsert (h : b.AtGate c s resource r spec) {existing : Option StatusRecord}
    {draft : Store} {isNew : Bool} {record : StatusRecord}
    (hupsert : (s.upsertStatus .never (.of resource r.adapter) c.freshId (planner spec r c.now)
      fun _ => .clear).toAnswer = ⟨draft, .ok (Store.writtenOutcome isNew record)⟩)
    (hconditions : record.conditions = (r.writeOver c.now existing).conditions) :
    ∃ status, record.toStatus = .ok status ∧
      b.answer s c = ⟨draft, .ok (.outcome (.stored status isNew))⟩ := by
  have hparse := Report.parse_writeOver (nodup_of_validate h.valid) c.now existing
  rw [← hconditions] at hparse
  obtain ⟨status, hstatus⟩ : ∃ status, record.toStatus = .ok status :=
    ⟨_, StatusRecord.toStatus_eq_ok_iff.mpr ⟨_, hparse, rfl⟩⟩
  refine ⟨status, hstatus, ?_⟩
  rw [answer_report s h.request h.spec h.valid, h.cancel, hupsert]
  simp only [handle.wrap, reply, mapError_ok, Except.bind, reportOutcome_writtenOutcome, hstatus]
  rfl

/-- The first report on a key that passes the gate is stored in a row of its own. -/
theorem answer_of_absent (h : b.AtGate c s resource r spec)
    (hopen : passesMandatory r.conditions spec.mandatory = .ok ())
    (habsent : s.findStatus? (.of resource r.adapter) = none)
    (hfresh : ∀ row ∈ s.statuses, row.id ≠ .text c.freshId.toText)
    (hkeepable : (r.writeOver c.now none).IsKeepable) :
    ∃ status, (b.answer s c).result = .ok (.outcome (.stored status true)) := by
  obtain ⟨record, hread, hconditions⟩ :=
    hkeepable.exists_ofRow_toRow c.freshId (.of resource r.adapter)
  have hplan := planner_of_open hopen (nodup_of_validate h.valid) c.now [] none
  have hupsert : (s.upsertStatus .never (.of resource r.adapter) c.freshId (planner spec r c.now)
      fun _ => .clear).toAnswer = ⟨_, .ok (Store.writtenOutcome true record)⟩ :=
    Store.upsertStatus_of_absent rfl h.owner habsent hplan hfresh hread
  obtain ⟨status, -, hanswer⟩ := h.answer_of_upsert hupsert hconditions
  exact ⟨status, congrArg Reply.result hanswer⟩

/-- A further report on a key that passes the gate is stored if some row has the identity that is
read from the row of the key, and the row of the key then holds what the report writes. -/
theorem answer_of_found (h : b.AtGate c s resource r spec)
    (hopen : passesMandatory r.conditions spec.mandatory = .ok ()) {row : StatusRow}
    {previous : StatusRecord} (hfind : s.findStatus? (.of resource r.adapter) = some row)
    (hprevious : StatusRecord.ofRowForUpdate row = .ok previous)
    (hany : s.statuses.any (Store.isNumbered previous.id) = true)
    (hholds : (if Store.isNumbered previous.id row then
        (r.writeOver c.now (some previous)).applyTo row else row) =
      (r.writeOver c.now (some previous)).applyTo row)
    (hkeepable : (r.writeOver c.now (some previous)).IsKeepable) :
    ∃ record status,
      StatusRecord.ofRow ((r.writeOver c.now (some previous)).applyTo row) = .ok record ∧
      record.toStatus = .ok status ∧
      b.answer s c = ⟨s.overwritten previous.id (r.writeOver c.now (some previous)),
        .ok (.outcome (.stored status false))⟩ := by
  have hcolumns := StatusRecord.says_of_ofRowForUpdate hprevious
  obtain ⟨record, hread, hconditions⟩ := hkeepable.exists_ofRow_applyTo hcolumns
  have hplan := planner_of_open hopen (nodup_of_validate h.valid) c.now [] (some previous)
  have hfind' : (s.overwritten previous.id (r.writeOver c.now (some previous))).findStatus?
      (.of resource r.adapter) = some ((r.writeOver c.now (some previous)).applyTo row) := by
    rw [Store.findStatus?_overwritten, hfind, Option.map_some, hholds]
  have hupsert : (s.upsertStatus .never (.of resource r.adapter) c.freshId (planner spec r c.now)
      fun _ => .clear).toAnswer = ⟨_, .ok (Store.writtenOutcome false record)⟩ :=
    Store.upsertStatus_of_found c.freshId _ h.owner hfind hprevious hplan hany hfind' hread
  obtain ⟨status, hstatus, hanswer⟩ := h.answer_of_upsert hupsert hconditions
  exact ⟨record, status, hread, hstatus, hanswer⟩

/-- A report whose upsert fails leaves everything as it was, and is told why. -/
theorem answer_of_failed (h : b.AtGate c s resource r spec) {e : StoreError}
    (hupsert : (s.upsertStatus .never (.of resource r.adapter) c.freshId (planner spec r c.now)
      fun _ => .clear).toAnswer = ⟨s, .error e⟩) :
    b.answer s c = ⟨s, .error (.ofStore e)⟩ := by
  rw [answer_report s h.request h.spec h.valid, h.cancel, hupsert]
  rfl

section Tables

variable {written : List StatusKey} {log : List Answered}

/-- A key is not kept, or its row is read under the identity that is written in it, and was last
reported on in a year that rows have room for. -/
theorem absent_or_found (hconsistent : s.Consistent written) (htells : s.Tells log) (key : StatusKey) :
    (s.findStatus? key = none ∧ ¬ s.Keeps key) ∨
      ∃ row previous, s.findStatus? key = some row ∧ s.Keeps key ∧
        StatusRecord.ofRow row = .ok previous ∧ Store.isNumbered previous.id row = true ∧
        s.statuses.any (Store.isNumbered previous.id) = true ∧
        0 ≤ previous.lastReportTime.date.year ∧ previous.lastReportTime.date.year ≤ 9999 := by
  cases hfind : s.findStatus? key with
  | none => exact .inl ⟨rfl, Store.findStatus?_eq_none_iff.mp hfind⟩
  | some row =>
      have hrow := List.mem_of_find?_eq_some hfind
      obtain ⟨previous, hprevious⟩ :=
        hconsistent.readable row hrow (Store.findStatus?_isLive hfind)
      have hsays := StatusRecord.says_of_ofRow hprevious
      have hnumbered := Store.Consistent.isNumbered_of_read hconsistent.distinct hrow
        (Store.findStatus?_isLive hfind) hsays
      exact .inr ⟨row, previous, rfl, ⟨row, hrow, Store.findStatus?_isOf hfind⟩, hprevious, hnumbered,
        List.any_eq_true.mpr ⟨row, hrow, hnumbered⟩, htells.years_of_read hrow hsays⟩

/-- A report that passes the gate is stored if its data can be read again. -/
theorem answer_of_open (h : b.AtGate c s resource r spec)
    (hopen : passesMandatory r.conditions spec.mandatory = .ok ())
    (hconsistent : s.Consistent written) (htells : s.Tells log)
    (hfresh : ∀ row ∈ s.statuses, row.id ≠ .text c.freshId.toText)
    (hreadable : r.IsReadable) (hnow : 0 ≤ c.now.date.year ∧ c.now.date.year ≤ 9999) :
    ∃ status isNew, (b.answer s c).result = .ok (.outcome (.stored status isNew)) ∧
      (isNew = true ↔ ¬ s.Keeps (.of resource r.adapter)) := by
  obtain ⟨habsent, hkeeps⟩ | ⟨row, previous, hfind, hkeeps, hprevious, hnumbered, hany, hyears⟩ :=
    absent_or_found hconsistent htells (.of resource r.adapter)
  · obtain ⟨status, hanswer⟩ := h.answer_of_absent hopen habsent hfresh
      ⟨hreadable, r.years_writeOver hnow none (by simp)⟩
    exact ⟨status, true, hanswer, iff_of_true rfl hkeeps⟩
  · obtain ⟨record, status, -, -, hanswer⟩ := h.answer_of_found hopen hfind
      (StatusRecord.ofRowForUpdate_of_ofRow hprevious) hany (if_pos hnumbered)
      ⟨hreadable, r.years_writeOver hnow (some previous) (by simpa using hyears)⟩
    exact ⟨status, false, congrArg Reply.result hanswer, by simp [hkeeps]⟩

/-- A report that passes the gate with data that cannot be read again fails, and leaves everything as it
was. -/
theorem answer_of_unreadable (h : b.AtGate c s resource r spec)
    (hopen : passesMandatory r.conditions spec.mandatory = .ok ())
    (hconsistent : s.Consistent written) (htells : s.Tells log)
    (hfresh : ∀ row ∈ s.statuses, row.id ≠ .text c.freshId.toText)
    (hunreadable : ¬ r.IsReadable) (hnow : 0 ≤ c.now.date.year ∧ c.now.date.year ≤ 9999) :
    b.answer s c = ⟨s, .error (.corrupt (.json "adapter status data"))⟩ := by
  have hplan := planner_of_open hopen (nodup_of_validate h.valid) c.now []
  refine h.answer_of_failed (e := .corrupt (.json "adapter status data")) ?_
  obtain ⟨habsent, -⟩ | ⟨row, previous, hfind, -, hprevious, hnumbered, hany, hyears⟩ :=
    absent_or_found hconsistent htells (.of resource r.adapter)
  · have hsays := StatusWrite.says_toRow (r.years_writeOver hnow none (by simp))
      c.freshId (.of resource r.adapter)
    have hread := StatusWrite.ofRow_of_unreadable (w := r.writeOver c.now none) hunreadable hsays
      rfl rfl
    exact Store.upsertStatus_of_absent rfl h.owner habsent (hplan none) hfresh hread
  · have hsays := StatusWrite.says_applyTo
      (r.years_writeOver hnow (some previous) (by simpa using hyears))
      (StatusRecord.says_of_ofRow hprevious)
    have hfind' := Store.findStatus?_overwritten_of_isNumbered hfind hnumbered
      (r.writeOver c.now (some previous))
    have hread := StatusWrite.ofRow_of_unreadable (w := r.writeOver c.now (some previous))
      hunreadable hsays rfl rfl
    exact Store.upsertStatus_of_found c.freshId _ h.owner hfind
      (StatusRecord.ofRowForUpdate_of_ofRow hprevious) (hplan (some previous)) hany hfind' hread

end Tables

end AtGate

/-- After any calls, every report is decided on by the table, whatever its resource and its data, if
nobody cancels it, its identity is fresh, and the clock is of a year that rows have room for. -/
theorem reports_decided_by_table {b : Board} (hsorted : b.kinds.IsSorted) (calls : List Call)
    {c : Call} {resource : ResourceRef} {r : Report} (hrequest : c.request = .report resource r)
    (hcancel : c.cancel = .never) (hnow : 0 ≤ c.now.date.year ∧ c.now.date.year ≤ 9999)
    (hfresh : ∀ row ∈ (b.run calls).1.statuses, row.id ≠ .text c.freshId.toText) :
    r.Decides b.kinds (b.run calls).1 resource (b.answer (b.run calls).1 c).result := by
  obtain ⟨written, hconsistent⟩ := b.consistent_run calls
  have htells := b.tells_run calls
  generalize (b.run calls).1 = s at *
  by_cases hfault : ∃ e, r.HasFault b.kinds resource e
  · obtain ⟨e, hfault⟩ := hfault
    rw [answer_report_of_invalid s hrequest (Report.hasFault_iff.mp hfault)]
    exact .of_fault hfault
  have hfaultless : r.IsFaultless b.kinds resource := not_exists.mp hfault
  obtain ⟨spec, hkind, hvalid⟩ := Report.isFaultless_iff.mp hfaultless
  have hspec : b.resolve resource.kind = .ok spec := mapError_eq_ok_iff.mpr hkind
  by_cases hshows : s.Shows resource
  · have hgate : b.AtGate c s resource r spec :=
      ⟨hrequest, hspec, hvalid, hcancel, Store.isSome_findResource?_iff.mpr hshows⟩
    have hnodup := nodup_of_validate hvalid
    have hshort : passesMandatory r.conditions spec.mandatory ≠ .ok () ↔
        r.FallsShort b.kinds resource.kind := by
      rw [passesMandatory_ne_ok_iff hnodup, Report.FallsShort, KindRegistry.mandates_eq hkind]
    by_cases hopen : passesMandatory r.conditions spec.mandatory = .ok ()
    · have hsettled : ¬ r.FallsShort b.kinds resource.kind := fun h => hshort.mpr h hopen
      by_cases hreadable : r.IsReadable
      · obtain ⟨status, isNew, hanswer, hnew⟩ :=
          hgate.answer_of_open hopen hconsistent htells hfresh hreadable hnow
        rw [hanswer]
        exact .of_written hfaultless hshows hsettled hreadable hnew status
      · rw [hgate.answer_of_unreadable hopen hconsistent htells hfresh hreadable hnow]
        exact .of_unreadable hfaultless hshows hsettled hreadable
    · have haccounts := accounts_shortfall hnodup (hsorted.of_resolve hkind) hopen
      rw [← KindRegistry.mandates_eq hkind] at haccounts
      rw [hgate.answer_of_closed hopen hconsistent]
      exact .of_shortfall hfaultless hshows (hshort.mp hopen) haccounts
  · have hmissing : s.findResource? resource = none := by
      rw [← Option.not_isSome_iff_eq_none, Store.isSome_findResource?_iff]
      exact hshows
    rw [answer_of_missing hrequest hspec hvalid (by simp [hcancel]) hmissing]
    exact .of_missing hfaultless hshows

/-- A report of the adapter that has reported already, which now knows nothing. -/
def doubtfulReport : Report where
  adapter := "a1"
  observedGeneration := 2
  conditions := KindRegistry.usualMandatory.map fun type => { type, status := .unknown }

/-- It comes with an identity of its own. -/
def doubtfulCall : Call where
  now := default
  freshId := ⟨List.replicate 32 (Fin.last 15), List.length_replicate⟩
  cancel := .never
  request := .report ⟨"Cluster", (default : Uuid).toText⟩ doubtfulReport

/-- Arrays in arrays, so many of them. -/
def nested : Nat → Json.Value
  | 0 => .null
  | depth + 1 => .array [nested depth]

theorem nesting_nested (depth : Nat) : Json5.nesting (nested depth) = depth := by
  induction depth with
  | zero => rfl
  | succ depth ih => simp [nested, Json5.nesting, Json5.nestingOfAll, ih]

theorem isTidy_nested (depth : Nat) : (nested depth).IsTidy := by
  induction depth with
  | zero => exact .null
  | succ depth ih => exact .array (by simpa using ih)

/-- A report of that adapter that all is well, with data that is nested so deep. -/
def deepReport (depth : Nat) : Report where
  adapter := "a1"
  observedGeneration := 2
  conditions := KindRegistry.usualMandatory.map fun type => { type, status := .holds }
  data := some (nested depth)

/-- It comes as the other one does. -/
def deepCall (depth : Nat) : Call :=
  { doubtfulCall with request := .report ⟨"Cluster", (default : Uuid).toText⟩ (deepReport depth) }

/-- It can be read again if it is nested no deeper than a document may be. -/
theorem isReadable_deepReport {depth : Nat} :
    (deepReport depth).IsReadable ↔ depth ≤ Json.depthLimit := by
  have htidy : ∀ v ∈ (deepReport depth).data, v.IsTidy := by
    rintro v ⟨⟩
    exact isTidy_nested depth
  rw [Report.isReadable_iff htidy]
  simp [deepReport, nesting_nested]

/-- Nothing but its data could be wrong with it. -/
theorem settled_deepReport (depth : Nat) :
    (deepReport depth).IsFaultless sampleBoard.kinds ⟨"Cluster", (default : Uuid).toText⟩ ∧
    ¬ (deepReport depth).FallsShort sampleBoard.kinds "Cluster" := by
  have hresolve : sampleBoard.kinds.resolve "Cluster" = .ok ⟨KindRegistry.usualMandatory⟩ := by decide
  have hvalid : (deepReport depth).validate = .ok () :=
    show (deepReport 0).validate = .ok () by decide
  have hopen : passesMandatory (deepReport depth).conditions KindRegistry.usualMandatory = .ok () := rfl
  refine ⟨Report.isFaultless_iff.mpr ⟨_, hresolve, hvalid⟩, fun hshort => ?_⟩
  rw [Report.FallsShort, KindRegistry.mandates_eq hresolve] at hshort
  exact (passesMandatory_ne_ok_iff (nodup_of_validate hvalid)).mpr hshort hopen

theorem reports_decided_by_table_sample :
    (∃ reason,
      (sampleBoard.answer (sampleBoard.run (sampleReports.take 2)).1 doubtfulCall).result =
        .ok (.outcome (.discarded reason)) ∧ "Health" ∈ reason.indeterminate) ∧
    ∃ status,
      (sampleBoard.answer (sampleBoard.run (sampleReports.take 2)).1 (deepCall 127)).result =
        .ok (.outcome (.stored status false)) := by
  have hsorted : sampleBoard.kinds.IsSorted := KindRegistry.isSorted_reference
  have hshows : (sampleBoard.run (sampleReports.take 2)).1.Shows
      ⟨"Cluster", (default : Uuid).toText⟩ :=
    Store.isSome_findResource?_iff.mp (by decide +kernel)
  constructor
  · have hdecides := reports_decided_by_table hsorted (sampleReports.take 2)
      (show doubtfulCall.request = .report ⟨"Cluster", _⟩ doubtfulReport from rfl) rfl (by decide)
      (by decide +kernel)
    have hfaultless : doubtfulReport.IsFaultless sampleBoard.kinds
        ⟨"Cluster", (default : Uuid).toText⟩ :=
      Report.isFaultless_iff.mpr ⟨⟨KindRegistry.usualMandatory⟩, by decide, by decide⟩
    have hmandated : sampleBoard.kinds.Mandates "Cluster" "Health" :=
      ⟨⟨KindRegistry.usualMandatory⟩, by decide, by decide⟩
    have hunknown : ConditionInput.IsUnknown doubtfulReport.conditions "Health" :=
      ⟨{ type := "Health", status := .unknown }, by decide, rfl, rfl⟩
    obtain ⟨reason, hreason⟩ :=
      hdecides.discarded.mpr ⟨hfaultless, hshows, "Health", hmandated, .inr hunknown⟩
    exact ⟨reason, hreason,
      ((hdecides.reason reason hreason).mem_indeterminate "Health").mpr ⟨hmandated, hunknown⟩⟩
  · have hdecides := reports_decided_by_table hsorted (sampleReports.take 2)
      (show (deepCall 127).request = .report ⟨"Cluster", _⟩ (deepReport 127) from rfl) rfl (by decide)
      (by decide +kernel)
    obtain ⟨hfaultless, hsettled⟩ := settled_deepReport 127
    have hkeeps : (sampleBoard.run (sampleReports.take 2)).1.Keeps
        (.of ⟨"Cluster", (default : Uuid).toText⟩ "a1") := by
      by_contra hkeeps
      exact absurd (Store.findStatus?_eq_none_iff.mpr hkeeps) (by decide +kernel)
    exact (hdecides.stored false).mpr ⟨hfaultless, hshows, hsettled,
      isReadable_deepReport.mpr (by decide), iff_of_false (by decide) (not_not.mpr hkeeps)⟩

/-- One level deeper, and the report fails, though nothing is wrong with it, its resource is there, and
it does not fall short: what the row would keep cannot be read again. -/
theorem deep_report_fails :
    (deepReport 128).IsFaultless sampleBoard.kinds ⟨"Cluster", (default : Uuid).toText⟩ ∧
    (sampleBoard.run (sampleReports.take 2)).1.Shows ⟨"Cluster", (default : Uuid).toText⟩ ∧
    ¬ (deepReport 128).FallsShort sampleBoard.kinds "Cluster" ∧
    sampleBoard.answer (sampleBoard.run (sampleReports.take 2)).1 (deepCall 128) =
      ⟨(sampleBoard.run (sampleReports.take 2)).1,
        .error (.corrupt (.json "adapter status data"))⟩ := by
  obtain ⟨hfaultless, hsettled⟩ := settled_deepReport 128
  obtain ⟨-, -, hvalid⟩ := Report.isFaultless_iff.mp hfaultless
  obtain ⟨written, hconsistent⟩ := sampleBoard.consistent_run (sampleReports.take 2)
  have howner : ((sampleBoard.run (sampleReports.take 2)).1.findResource?
      ⟨"Cluster", (default : Uuid).toText⟩).isSome = true := by decide +kernel
  have hgate : sampleBoard.AtGate (deepCall 128) (sampleBoard.run (sampleReports.take 2)).1
      ⟨"Cluster", (default : Uuid).toText⟩ (deepReport 128) ⟨KindRegistry.usualMandatory⟩ :=
    ⟨rfl, rfl, hvalid, rfl, howner⟩
  have hunreadable : ¬ (deepReport 128).IsReadable := by
    rw [isReadable_deepReport]
    decide
  refine ⟨hfaultless, Store.isSome_findResource?_iff.mp howner, hsettled, ?_⟩
  exact hgate.answer_of_unreadable rfl hconsistent (sampleBoard.tells_run _) (by decide +kernel)
    hunreadable (by decide)

end Board
end StatusBoard

import StatusBoard.Proofs.Service.Blame
set_option autoImplicit false

/-!
# Service: writing over damaged rows

What a report replaces is read with patience, and conditions that are no document count as none.  So a
row is written over whatever its texts hold, as long as they are texts: bytes in their place are read by
no one, and a row that has them cannot be written over either.
-/

namespace StatusBoard

/-! ## Conditions over what was there -/

/-- The document that conditions make where a cell held others before: merged over the document in the
cell, and as they were sent if there is none. -/
structure Document.IsMadeOver (d : Document) (conditions : List ConditionInput)
    (generation : Int64) (now : Instant) (old : Cell) : Prop where
  merged : ∀ raw previous, old = .text raw → Document.parse raw = .ok previous →
    d = (Document.sent conditions generation now).mergedOver (some previous) now
  renewed : (∀ raw previous, old = .text raw → Document.parse raw ≠ .ok previous) →
    d = Document.sent conditions generation now

theorem Document.mergedOver_none_sent (conditions : List ConditionInput) (generation : Int64)
    (now : Instant) :
    (sent conditions generation now).mergedOver none now = sent conditions generation now := by
  rw [sent, mergedOver, List.map_map]
  rfl

theorem Document.isMadeOver_text (conditions : List ConditionInput) (generation : Int64)
    (now : Instant) (raw : String) :
    ((sent conditions generation now).mergedOver (previousOf (some raw)) now).IsMadeOver
      conditions generation now (.text raw) where
  merged := by
    rintro _ previous ⟨⟩ hparse
    rw [previousOf_some_of_parse hparse]
  renewed := by
    intro hnone
    have hprevious : previousOf (some raw) = none := by
      cases hparse : parse raw with
      | error e => simp [previousOf, hparse, Except.toOption]
      | ok previous => exact absurd hparse (hnone raw previous rfl)
    rw [hprevious, mergedOver_none_sent]

theorem Document.IsMadeOver.unique {d d' : Document} {conditions : List ConditionInput}
    {generation : Int64} {now : Instant} {old : Cell}
    (h : d.IsMadeOver conditions generation now old)
    (h' : d'.IsMadeOver conditions generation now old) : d = d' := by
  by_cases hold : ∃ raw previous, old = .text raw ∧ Document.parse raw = .ok previous
  · obtain ⟨raw, previous, hraw, hparse⟩ := hold
    rw [h.merged raw previous hraw hparse, h'.merged raw previous hraw hparse]
  · have hnone : ∀ raw previous, old = .text raw → Document.parse raw ≠ .ok previous :=
      fun raw previous hraw hparse => hold ⟨raw, previous, hraw, hparse⟩
    rw [h.renewed hnone, h'.renewed hnone]

/-! ## Rows that can be written over -/

namespace StatusRow

/-- The columns hold what belongs to their class: a whole number, a text, and texts or nothing. -/
structure IsLegible (row : StatusRow) : Prop where
  observedGeneration : ∃ generation, row.observedGeneration = .int generation
  conditions : ∃ raw, row.conditions = .text raw
  data : ∃ raw, row.data = .ofText? raw
  metadata : ∃ raw, row.metadata = .ofText? raw

/-- A row whose identity and times can be read is read for an update exactly if it is legible. -/
theorem isLegible_iff {row : StatusRow} {key : StatusKey} (hof : row.isOf key = true) {id : Uuid}
    {created last : Instant} (hid : ∃ raw, row.id = .text raw ∧ Uuid.parse? raw = some id)
    (hcreated : ∃ raw, row.createdTime = .text raw ∧ Instant.parseStrict? raw = some created)
    (hlast : ∃ raw, row.lastReportTime = .text raw ∧ Instant.parseStrict? raw = some last) :
    row.IsLegible ↔ ∃ previous, StatusRecord.ofRowForUpdate row = .ok previous := by
  obtain ⟨⟨htype, howner, hadapter⟩, -⟩ := isOf_iff.mp hof
  obtain ⟨idText, hidText, hid⟩ := hid
  obtain ⟨createdText, hcreatedText, hcreated⟩ := hcreated
  obtain ⟨lastText, hlastText, hlast⟩ := hlast
  constructor
  · rintro ⟨⟨generation, hgeneration⟩, ⟨raw, hraw⟩, ⟨data, hdata⟩, ⟨metadata, hmetadata⟩⟩
    let columns : StatusColumns :=
      ⟨idText, key, generation, raw, data, metadata, createdText, lastText⟩
    have hcolumns : StatusColumns.ofRow row = .ok columns :=
      StatusColumns.ofRow_eq_ok_iff.mpr ⟨hidText, htype, howner, hadapter, hgeneration, hraw, hdata,
        hmetadata, hcreatedText, hlastText⟩
    let record : StatusRecord := ⟨id, key, generation, raw,
      StatusRecord.ofRowForUpdate.tolerated columns.dataOf,
      StatusRecord.ofRowForUpdate.tolerated columns.metadataOf, created, last⟩
    refine ⟨record, bind_eq_ok_iff.mpr ⟨columns, hcolumns, ?_⟩⟩
    exact StatusColumns.record_eq_ok_iff.mpr ⟨hid, rfl, rfl, hcreated, hlast, rfl, rfl, rfl⟩
  · rintro ⟨previous, hread⟩
    obtain ⟨columns, hcolumns, -⟩ := bind_eq_ok_iff.mp hread
    obtain ⟨-, -, -, -, hgeneration, hraw, hdata, hmetadata, -, -⟩ :=
      StatusColumns.ofRow_eq_ok_iff.mp hcolumns
    exact ⟨⟨_, hgeneration⟩, ⟨_, hraw⟩, ⟨_, hdata⟩, ⟨_, hmetadata⟩⟩

end StatusRow

/-- The row that a report makes of one: its identity, key and time of creation stay. -/
def Report.rowOver (r : Report) (row : StatusRow) (d : Document) (stamp : Instant) : StatusRow :=
  { row with
    observedGeneration := .int r.observedGeneration
    conditions := .text d.render
    data := .ofText? (r.data.map (·.render))
    metadata := .ofText? (r.metadata.map fun m => m.write.render)
    lastReportTime := .text stamp.toStorageText }

/-- The conditions that a report makes where a record holds others. -/
def Report.documentOver (r : Report) (now : Instant) (previous : StatusRecord) : Document :=
  (Document.sent r.conditions r.observedGeneration (stamp now (some previous))).mergedOver
    (Document.previousOf (some previous.conditions)) (stamp now (some previous))

theorem Report.applyTo_writeOver (r : Report) (now : Instant) (previous : StatusRecord)
    (row : StatusRow) :
    (r.writeOver now (some previous)).applyTo row =
      r.rowOver row (r.documentOver now previous) (stamp now (some previous)) := rfl

/-- What is read of a text that may be missing, and was written of what may be missing. -/
theorem StatusColumns.map_decode?_of_jsonOf {α β : Type} {reader : Json.Reader α} {what : String}
    {written : Option β} {render : β → String} {raw : Option String} {x : Option α}
    (hraw : Cell.ofText? (written.map render) = .ofText? raw)
    (hread : jsonOf reader what raw = .ok x) :
    (written.map fun v => Json.decode? reader (render v)) = x.map some := by
  cases written with
  | none =>
      cases raw with
      | none =>
          cases hread
          rfl
      | some raw => cases hraw
  | some v =>
      cases raw with
      | none => cases hraw
      | some raw =>
          cases hraw
          obtain ⟨y, hy, hx⟩ := bind_eq_ok_iff.mp hread
          cases hx
          exact congrArg some (decodeJson_eq_ok_iff.mp hy)

theorem StatusColumns.jsonOf_ofText? {α β : Type} {reader : Json.Reader α} {what : String}
    {written : Option β} {render : β → String} {raw : Option String} {x : Option α}
    (hraw : Cell.ofText? (written.map render) = .ofText? raw)
    (hread : jsonOf reader what raw = .ok x) :
    x = written.bind fun v => Json.decode? reader (render v) := by
  have hdecoded := congrArg (fun found => found.bind fun y => y) (map_decode?_of_jsonOf hraw hread)
  simpa [Option.bind_map, Function.comp_def] using hdecoded.symm

/-- What is read of a row that a report made. -/
theorem Report.reads_rowOver {r : Report} {row : StatusRow} {d : Document} {stamp : Instant}
    {record : StatusRecord} {status : AdapterStatus}
    (hread : StatusRecord.ofRow (r.rowOver row d stamp) = .ok record)
    (hstatus : record.toStatus = .ok status) (hd : Document.parse d.render = .ok d) :
    status = { status with
      id := record.id
      createdTime := record.createdTime
      lastReportTime := stamp.truncateMicros
      observedGeneration := r.observedGeneration
      conditions := d
      data := r.data.bind fun v => Json.decode? Json.readValue v.render
      metadata := r.metadata } := by
  obtain ⟨hcolumns, ⟨dataText, hdataText, hdata⟩, ⟨metadataText, hmetadataText, hmetadata⟩⟩ :=
    StatusRecord.ofRow_eq_ok_iff.mp hread
  obtain ⟨parsed, hparse, rfl⟩ := StatusRecord.toStatus_eq_ok_iff.mp hstatus
  obtain ⟨lastText, hlastText, hlast⟩ := hcolumns.lastReportTime
  cases hlastText
  have hgeneration : r.observedGeneration = record.observedGeneration :=
    Cell.int.inj hcolumns.observedGeneration
  have hconditions : d.render = record.conditions := Cell.text.inj hcolumns.conditions
  rw [← hconditions, hd] at hparse
  have hmetadataRead := StatusColumns.jsonOf_ofText? hmetadataText hmetadata
  simp only [ExecutionMetadata.decode?_render, Option.bind_fun_some] at hmetadataRead
  rw [AdapterStatus.mk.injEq]
  exact ⟨rfl, rfl, hgeneration.symm, (Except.ok.inj hparse).symm,
    StatusColumns.jsonOf_ofText? hdataText hdata, hmetadataRead, rfl,
    Instant.eq_truncateMicros_of_parseStrict? hlast⟩

/-! ## Reports -/

namespace Board

variable {b : Board} {c : Call} {s : Store} {resource : ResourceRef}

/-- A report passes the gate of a live resource, its key has a live row with an identity and times
that can be read, and nobody cancels it. -/
structure ReportsOver (b : Board) (c : Call) (s : Store) (resource : ResourceRef) (r : Report)
    (row : StatusRow) (id : Uuid) (created last : Instant) : Prop where
  gate : ∃ spec, b.AtGate c s resource r spec ∧
    passesMandatory r.conditions spec.mandatory = .ok ()
  receivable : r.IsReceivable
  found : s.findStatus? (.of resource r.adapter) = some row
  id : ∃ raw, row.id = .text raw ∧ Uuid.parse? raw = some id
  created : ∃ raw, row.createdTime = .text raw ∧ Instant.parseStrict? raw = some created
  last : ∃ raw, row.lastReportTime = .text raw ∧ Instant.parseStrict? raw = some last

/-- A report is stored in the row that its key has: its identity and time of creation stay, the
conditions are made over the old ones, all else is the report's, and the row is read as the status
that is answered. -/
structure StoresOver (reply : Reply Response) (key : StatusKey) (r : Report) (row : StatusRow)
    (id : Uuid) (created stamp : Instant) (status : AdapterStatus) : Prop where
  stored : reply.result = .ok (.outcome (.stored status false))
  written : reply.store.findStatus? key = some (r.rowOver row status.conditions stamp)
  read : ∃ record, StatusRecord.ofRow (r.rowOver row status.conditions stamp) = .ok record ∧
    record.toStatus = .ok status
  id : status.id = id
  createdTime : status.createdTime = created
  lastReportTime : status.lastReportTime = stamp.truncateMicros
  observedGeneration : status.observedGeneration = r.observedGeneration
  conditions :
    status.conditions.IsMadeOver r.conditions r.observedGeneration stamp row.conditions
  data : status.data = r.data.bind fun v => Json.decode? Json.readValue v.render
  metadata : status.metadata = r.metadata

/-- A row can be written over by a report: it is legible, the report's time is of a year that rows
have room for, and some row has its identity as it is written, this one unless it is already as the
report makes it. -/
structure TakesReport (s : Store) (r : Report) (row : StatusRow) (id : Uuid) (stamp : Instant) :
    Prop where
  legible : row.IsLegible
  years : 0 ≤ stamp.date.year ∧ stamp.date.year ≤ 9999
  numbered : s.statuses.any (Store.isNumbered id) = true
  reached : Store.isNumbered id row = true ∨ ∃ d : Document,
    d.IsMadeOver r.conditions r.observedGeneration stamp row.conditions ∧
      row = r.rowOver row d stamp

namespace ReportsOver

variable {r : Report} {row : StatusRow} {id : Uuid} {created last : Instant}

/-- What is read of the row for an update is the identity and the times that can be read. -/
theorem previous_eq (h : b.ReportsOver c s resource r row id created last)
    {previous : StatusRecord} (hread : StatusRecord.ofRowForUpdate row = .ok previous) :
    previous.id = id ∧ previous.createdTime = created ∧ previous.lastReportTime = last := by
  have hsays := StatusRecord.says_of_ofRowForUpdate hread
  obtain ⟨idText, hidText, hid⟩ := h.id
  obtain ⟨createdText, hcreatedText, hcreated⟩ := h.created
  obtain ⟨lastText, hlastText, hlast⟩ := h.last
  exact ⟨Option.some.inj ((Cell.read_eq hidText hsays.id).symm.trans hid),
    Option.some.inj ((Cell.read_eq hcreatedText hsays.createdTime).symm.trans hcreated),
    Option.some.inj ((Cell.read_eq hlastText hsays.lastReportTime).symm.trans hlast)⟩

/-- The conditions of the report are made over those in the row. -/
theorem isMadeOver (h : b.ReportsOver c s resource r row id created last)
    {previous : StatusRecord} (hread : StatusRecord.ofRowForUpdate row = .ok previous) :
    (r.documentOver c.now previous).IsMadeOver r.conditions r.observedGeneration
      (Instant.latest c.now last) row.conditions := by
  rw [(StatusRecord.says_of_ofRowForUpdate hread).conditions, Report.documentOver, Report.stamp,
    (h.previous_eq hread).2.2]
  exact Document.isMadeOver_text _ _ _ _

/-- A report that is stored in the row could be. -/
theorem takesReport (h : b.ReportsOver c s resource r row id created last)
    {status : AdapterStatus}
    (hstores : StoresOver (b.answer s c) (.of resource r.adapter) r row id created
      (Instant.latest c.now last) status) :
    TakesReport s r row id (Instant.latest c.now last) := by
  obtain ⟨spec, hgate, hopen⟩ := h.gate
  obtain ⟨record, hread, -⟩ := hstores.read
  obtain ⟨raw, hraw, hlast⟩ := (StatusRecord.says_of_ofRow hread).lastReportTime
  cases hraw
  have hyears := Instant.years_of_parseStrict? hlast
  rw [Instant.eq_truncateMicros_of_parseStrict? hlast] at hyears
  obtain ⟨spec, _, _, -, -, -, hwrites, -⟩ :=
    (b.ends_answer c s).stored_of_result hgate.request hstores.stored
  have hwritten := hstores.written
  generalize (b.answer s c).store = draft at hwrites hwritten
  cases hwrites with
  | update plan found read numbered =>
      cases h.found.symm.trans found
      rw [(h.previous_eq read).1] at numbered hwritten
      refine ⟨(StatusRow.isLegible_iff (Store.findStatus?_isOf h.found) h.id h.created
        h.last).mpr ⟨_, read⟩, hyears, numbered, ?_⟩
      rw [Store.findStatus?_overwritten, h.found, Option.map_some, Option.some.injEq] at hwritten
      refine or_iff_not_imp_left.mpr fun hmissed => ?_
      rw [if_neg hmissed] at hwritten
      exact ⟨_, hstores.conditions, hwritten⟩

/-- A report is stored in the row if it can be. -/
theorem storesOver (h : b.ReportsOver c s resource r row id created last)
    (htakes : TakesReport s r row id (Instant.latest c.now last)) :
    ∃ status, StoresOver (b.answer s c) (.of resource r.adapter) r row id created
      (Instant.latest c.now last) status := by
  obtain ⟨spec, hgate, hopen⟩ := h.gate
  obtain ⟨previous, hprevious⟩ := (StatusRow.isLegible_iff (Store.findStatus?_isOf h.found) h.id
    h.created h.last).mp htakes.legible
  obtain ⟨hid, hcreated, hlast⟩ := h.previous_eq hprevious
  have hstamp : Report.stamp c.now (some previous) = Instant.latest c.now last := by
    rw [Report.stamp, hlast]
  have hmade := h.isMadeOver hprevious
  have hkeepable : (r.writeOver c.now (some previous)).IsKeepable := by
    refine ⟨h.receivable.isReadable, ?_⟩
    change 0 ≤ (Report.stamp c.now (some previous)).date.year ∧
      (Report.stamp c.now (some previous)).date.year ≤ 9999
    rw [hstamp]
    exact htakes.years
  have hholds : (if Store.isNumbered previous.id row then
      (r.writeOver c.now (some previous)).applyTo row else row) =
        (r.writeOver c.now (some previous)).applyTo row := by
    rw [hid, Report.applyTo_writeOver, hstamp]
    split
    · rfl
    · rename_i hmissed
      obtain ⟨d, hd, hrow⟩ := htakes.reached.resolve_left hmissed
      rw [← hd.unique hmade]
      exact hrow
  obtain ⟨record, status, hread, hstatus, hanswer⟩ :=
    hgate.answer_of_found hopen h.found hprevious (hid ▸ htakes.numbered) hholds hkeepable
  have hfound : (s.overwritten previous.id (r.writeOver c.now (some previous))).findStatus?
      (.of resource r.adapter) = some ((r.writeOver c.now (some previous)).applyTo row) := by
    rw [Store.findStatus?_overwritten, h.found, Option.map_some, hholds]
  rw [Report.applyTo_writeOver, hstamp] at hread hfound
  have hparse := Document.parse_render_mergedOver
    (Document.hasDistinctTypes_sent (nodup_of_validate hgate.valid) r.observedGeneration
      (Report.stamp c.now (some previous)))
    (Document.previousOf (some previous.conditions)) (Report.stamp c.now (some previous))
  have hreads := Report.reads_rowOver hread hstatus hparse
  have hsays := StatusRecord.says_of_ofRow hread
  have hconditions : status.conditions = r.documentOver c.now previous :=
    congrArg AdapterStatus.conditions hreads
  obtain ⟨idText, hidText, hidParse⟩ := h.id
  obtain ⟨createdText, hcreatedText, hcreatedParse⟩ := h.created
  exact ⟨status, {
    stored := by rw [hanswer]
    written := by rw [hanswer, hconditions]; exact hfound
    read := ⟨record, by rw [hconditions]; exact hread, hstatus⟩
    id := (congrArg AdapterStatus.id hreads).trans
      (Option.some.inj ((Cell.read_eq hidText hsays.id).symm.trans hidParse))
    createdTime := (congrArg AdapterStatus.createdTime hreads).trans
      (Option.some.inj ((Cell.read_eq hcreatedText hsays.createdTime).symm.trans hcreatedParse))
    lastReportTime := congrArg AdapterStatus.lastReportTime hreads
    observedGeneration := congrArg AdapterStatus.observedGeneration hreads
    conditions := hconditions ▸ hmade
    data := congrArg AdapterStatus.data hreads
    metadata := congrArg AdapterStatus.metadata hreads }⟩

end ReportsOver

/-! ## Conditions of resources -/

/-- Conditions that are right are set for a live resource that can be read but for its conditions,
and nobody cancels. -/
structure SetsOver (b : Board) (c : Call) (s : Store) (resource : ResourceRef) (generation : Int64)
    (conditions : List ConditionInput) (row : ResourceRow) (x : Resource) : Prop where
  request : c.request = .setConditions resource generation conditions
  kind : ∃ spec, b.resolve resource.kind = .ok spec
  checked : checkResourceConditions conditions = .ok ()
  distinct : (conditions.map (·.type)).Nodup
  cancel : c.cancel = .never
  found : s.findResource? resource = some row
  readable : Resource.ofRow { row with statusConditions := .text Document.empty.render } = .ok x

/-- The resource is given a document of conditions at a time, and nothing else of it changes. -/
structure GivesConditions (reply : Reply Response) (resource : ResourceRef) (row : ResourceRow)
    (x : Resource) (d : Document) (now : Instant) : Prop where
  answered : reply.result =
    .ok (.resource { x with statusConditions := d, updatedTime := now.truncateMicros })
  written : reply.store.findResource? resource = some (Store.withConditions d.render now row)
  read : Resource.ofRow (Store.withConditions d.render now row) =
    .ok { x with statusConditions := d, updatedTime := now.truncateMicros }

namespace SetsOver

variable {generation : Int64} {conditions : List ConditionInput} {row : ResourceRow} {x : Resource}

/-- Conditions are set over a text, whatever it is, and over nothing else, at times of the years that
rows have room for. -/
theorem givesConditions_iff (h : b.SetsOver c s resource generation conditions row x) :
    (∃ d : Document, d.IsMadeOver conditions generation c.now row.statusConditions ∧
        GivesConditions (b.answer s c) resource row x d c.now) ↔
      (∃ raw, row.statusConditions = .text raw) ∧
        0 ≤ c.now.date.year ∧ c.now.date.year ≤ 9999 := by
  constructor
  · rintro ⟨d, -, hgives⟩
    obtain ⟨raw, hraw, hparse⟩ := (Resource.ofRow_eq_ok_iff.mp hgives.read).updatedTime
    cases hraw
    have hyears := Instant.years_of_parseStrict? hparse
    obtain ⟨row, raw, -, -, hfind, htext, -⟩ :=
      (b.ends_answer c s).conditioned_of_result h.request hgives.answered
    cases h.found.symm.trans hfind
    exact ⟨⟨_, htext⟩, hyears⟩
  · rintro ⟨⟨raw, htext⟩, hyears⟩
    obtain ⟨spec, hspec⟩ := h.kind
    have hsays := Resource.ofRow_eq_ok_iff.mp h.readable
    have hparse := Document.parse_render_mergedOver
      (Document.hasDistinctTypes_sent h.distinct generation c.now)
      (Document.previousOf (some raw)) c.now
    let d := Document.setOver conditions generation c.now raw
    have hread : Resource.ofRow (Store.withConditions d.render c.now row) =
        .ok { x with statusConditions := d, updatedTime := c.now.truncateMicros } :=
      Resource.ofRow_eq_ok_iff.mpr {
        hsays with
        statusConditions := ⟨_, rfl, hparse⟩
        updatedTime := ⟨_, rfl, Instant.parseStrict?_toStorageText hyears⟩ }
    have hincoming : b.incomingConditions c.circumstances resource generation conditions =
        .ok (.sent conditions generation c.now) := by
      simp only [incomingConditions, hspec, h.checked, mapError_ok, bind, Except.bind,
        Document.ofInputs_of_nodup h.distinct]
      rfl
    have hupdate : s.updateConditions .never resource c.now (fun raw =>
        ⟨(Document.setOver conditions generation c.now raw).render, false⟩) = _ :=
      Store.updateConditions_of_found h.found htext rfl hread
    have hanswer : b.answer s c = ⟨s.setConditions resource d.render c.now,
        .ok (.resource { x with statusConditions := d, updatedTime := c.now.truncateMicros })⟩ := by
      simp only [answer, h.request, handle, setConditions, hincoming,
        Document.document_mergedOverStored]
      rw [c.circumstances_cancel, h.cancel]
      exact congrArg (fun a => handle.wrap (reply a .ok) .resource) hupdate
    refine ⟨d, htext ▸ Document.isMadeOver_text conditions generation c.now raw, ?_⟩
    rw [hanswer]
    exact ⟨rfl, Store.findResource?_setConditions _ _ h.found, hread⟩

end SetsOver

/-- Damage does not stop what is written over it, as long as it is a matter of texts.  A report is
stored in the row of its key exactly if the row can be written over, and conditions are set for a
resource exactly if it has a text where they are kept, at times that rows have room for. -/
theorem damage_written_over_iff (b : Board) (c : Call) (s : Store) (resource : ResourceRef) :
    (∀ {r : Report} {row : StatusRow} {id : Uuid} {created last : Instant},
      b.ReportsOver c s resource r row id created last →
        ((∃ status, StoresOver (b.answer s c) (.of resource r.adapter) r row id created
            (Instant.latest c.now last) status) ↔
          TakesReport s r row id (Instant.latest c.now last))) ∧
    ∀ {generation : Int64} {conditions : List ConditionInput} {row : ResourceRow} {x : Resource},
      b.SetsOver c s resource generation conditions row x →
        ((∃ d : Document, d.IsMadeOver conditions generation c.now row.statusConditions ∧
            GivesConditions (b.answer s c) resource row x d c.now) ↔
          (∃ raw, row.statusConditions = .text raw) ∧
            0 ≤ c.now.date.year ∧ c.now.date.year ≤ 9999) := by
  refine ⟨fun h => ⟨?_, h.storesOver⟩, fun h => h.givesConditions_iff⟩
  rintro ⟨status, hstores⟩
  exact h.takesReport hstores

/-- The time that is told in a stray row. -/
def strayTime : Instant :=
  (Instant.of? ((Date.of? 2026 2 1).get rfl) 28800 0).get rfl

/-- The resource of all stray rows. -/
def strayResource : ResourceRef :=
  ⟨"Cluster", "00000000-0000-4000-8000-000000000001"⟩

/-- The report that a stray call brings. -/
def strayReport : Report where
  adapter := "a2"
  observedGeneration := 1
  conditions := KindRegistry.usualMandatory.map fun type => { type, status := .holds }

/-- The row of `a2` has metadata that are no JSON, and something else for conditions and data. -/
def damagedRow (conditions data : Cell) : StatusRow :=
  { strayRow (default : Uuid).toText "a2" "" with conditions, data, metadata := .text "z" }

/-- The resource of all stray rows has something else for conditions. -/
def damagedResource (conditions : Cell) : ResourceRow :=
  { strayStore.resources.head (by simp [strayStore]) with statusConditions := conditions }

/-- A resource and a status of it with something else for conditions and data. -/
def damagedStore (conditions data : Cell) : Store where
  resources := [damagedResource conditions]
  statuses := [damagedRow conditions data]

theorem reportsOver_damaged (conditions data : Cell) :
    sampleBoard.ReportsOver strayCall (damagedStore conditions data) strayResource strayReport
      (damagedRow conditions data) default strayTime strayTime where
  gate := ⟨⟨KindRegistry.usualMandatory⟩, ⟨rfl, by decide, by decide, rfl, by rfl⟩, by decide⟩
  receivable := by rintro v ⟨⟩
  found := by rfl
  id := ⟨_, rfl, Uuid.parse?_toText default⟩
  created := ⟨_, rfl, by decide +kernel⟩
  last := ⟨_, rfl, by decide +kernel⟩

/-- One condition is set for the resource of the stray rows. -/
def mendingCall : Call where
  now := default
  freshId := default
  cancel := .never
  request := .setConditions strayResource 1 [{ type := "Ready", status := .holds }]

theorem setsOver_damaged (conditions data : Cell) :
    ∃ x, sampleBoard.SetsOver mendingCall (damagedStore conditions data) strayResource 1
      [{ type := "Ready", status := .holds }] (damagedResource conditions) x := by
  have hreads :
      (Resource.ofRow (damagedResource (.text Document.empty.render))).toOption.isSome = true := by
    decide +kernel
  cases hread : Resource.ofRow (damagedResource (.text Document.empty.render)) with
  | error e =>
      rw [hread] at hreads
      cases hreads
  | ok x =>
      exact ⟨x, {
        request := rfl
        kind := ⟨⟨KindRegistry.usualMandatory⟩, by decide⟩
        checked := by decide
        distinct := by decide
        cancel := rfl
        found := by rfl
        readable := hread }⟩

theorem damage_written_over_sample :
    (∃ status, status.id = default ∧
      (sampleBoard.answer (damagedStore (.text "x") (.text "y")) strayCall).result =
        .ok (.outcome (.stored status false))) ∧
    ∃ x, (sampleBoard.answer (damagedStore (.text "x") (.text "y")) mendingCall).result =
      .ok (.resource x) := by
  constructor
  · have htakes : TakesReport (damagedStore (.text "x") (.text "y")) strayReport
        (damagedRow (.text "x") (.text "y")) default
        (Instant.latest strayCall.now strayTime) := by
      refine ⟨⟨⟨_, rfl⟩, ⟨_, rfl⟩, ⟨some "y", rfl⟩, ⟨some "z", rfl⟩⟩, by decide, ?_, .inl ?_⟩ <;>
        simp [Store.isNumbered, damagedStore, damagedRow, strayRow, StatusRow.isLive]
    obtain ⟨status, hstores⟩ :=
      ((damage_written_over_iff sampleBoard strayCall _ strayResource).1
        (reportsOver_damaged (.text "x") (.text "y"))).mpr htakes
    exact ⟨status, hstores.id, hstores.stored⟩
  · obtain ⟨x, hsets⟩ := setsOver_damaged (.text "x") (.text "y")
    obtain ⟨d, -, hgives⟩ :=
      ((damage_written_over_iff sampleBoard mendingCall _ strayResource).2 hsets).mpr
        ⟨⟨_, rfl⟩, by decide⟩
    exact ⟨_, hgives.answered⟩

/-- Bytes for data block a report, and bytes for conditions block the setting of conditions. -/
theorem bytes_block_writes :
    (∃ id created last,
      sampleBoard.ReportsOver strayCall (damagedStore (.text "x") (.blob [120])) strayResource
        strayReport (damagedRow (.text "x") (.blob [120])) id created last) ∧
    (sampleBoard.answer (damagedStore (.text "x") (.blob [120])) strayCall).isFruitless = true ∧
    (∃ x, sampleBoard.SetsOver mendingCall (damagedStore (.blob [120]) .null) strayResource 1
      [{ type := "Ready", status := .holds }] (damagedResource (.blob [120])) x) ∧
    (sampleBoard.answer (damagedStore (.blob [120]) .null) mendingCall).isFruitless = true :=
  ⟨⟨default, strayTime, strayTime, reportsOver_damaged _ _⟩, by decide +kernel,
    setsOver_damaged _ _, by decide +kernel⟩

end Board
end StatusBoard

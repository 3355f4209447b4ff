import StatusBoard.Proofs.Condition.RoundTrip
import StatusBoard.Proofs.Store.Identity
import StatusBoard.Store.Decoding
set_option autoImplicit false

/-!
# Store: what a row has to hold to be read

Reading goes through the columns one by one.  Here it is said once, for each of the two tables,
which cells make a row one that is read, and as what.
-/

namespace StatusBoard

/-- A chain of steps ends well if each of its steps does. -/
theorem bind_eq_ok_iff {ε α β : Type} {x : Except ε α} {f : α → Except ε β} {b : β} :
    (x >>= f) = .ok b ↔ ∃ a, x = .ok a ∧ f a = .ok b := by
  cases x with
  | error e => simp [bind, Except.bind]
  | ok a => simp [bind, Except.bind]

theorem bind_eq_error_iff {ε α β : Type} {x : Except ε α} {f : α → Except ε β} {e : ε} :
    (x >>= f) = .error e ↔ x = .error e ∨ ∃ a, x = .ok a ∧ f a = .error e := by
  cases x <;> simp [bind, Except.bind]

@[simp] theorem mapError_ok {ε δ α : Type} (f : ε → δ) (a : α) :
    (Except.ok a).mapError f = .ok a := rfl

@[simp] theorem mapError_error {ε δ α : Type} (f : ε → δ) (e : ε) :
    (Except.error e : Except ε α).mapError f = .error (f e) := rfl

/-- Faults that are told in other words are the same faults. -/
theorem mapError_eq_ok_iff {ε δ α : Type} {x : Except ε α} {f : ε → δ} {a : α} :
    x.mapError f = .ok a ↔ x = .ok a := by
  cases x <;> simp

theorem throw_eq_ok_iff {ε α : Type} {e : ε} {a : α} : (throw e : Except ε α) = .ok a ↔ False := by
  simp [throw, throwThe, MonadExceptOf.throw]

theorem decodeTime_eq_ok_iff {what raw : String} {t : Instant} :
    decodeTime what raw = .ok t ↔ Instant.parseStrict? raw = some t := by
  unfold decodeTime
  split <;> simp_all

theorem decodeJson_eq_ok_iff {α : Type} {reader : Json.Reader α} {what raw : String} {x : α} :
    decodeJson reader what raw = .ok x ↔ Json.decode? reader raw = some x := by
  unfold decodeJson
  split <;> simp_all

/-- A cell with a known text is read as that text is. -/
theorem Cell.read_eq {α : Type} {read : String → α} {cell : Cell} {text : String} {x : α}
    (h : cell = .text text) (hread : ∃ raw, cell = .text raw ∧ read raw = x) : read text = x := by
  obtain ⟨raw, hraw, hx⟩ := hread
  rw [h] at hraw
  cases hraw
  exact hx

/-- A cell with the written form of an identity is read as that identity. -/
theorem Uuid.eq_of_read {cell : Cell} {u v : Uuid} (h : cell = .text u.toText)
    (hread : ∃ raw, cell = .text raw ∧ Uuid.parse? raw = some v) : v = u := by
  have hparse := Cell.read_eq h hread
  rw [Uuid.parse?_toText] at hparse
  exact (Option.some.inj hparse).symm

/-! ## Statuses -/

namespace StatusColumns

theorem textAt_eq_ok_iff {cell : Cell} {index : Nat} {column s : String} :
    textAt cell index column = .ok s ↔ cell = .text s := by
  cases cell <;> simp [textAt]

theorem optionalAt_eq_ok_iff {cell : Cell} {index : Nat} {column : String} {x : Option String} :
    optionalAt cell index column = .ok x ↔ cell = .ofText? x := by
  cases cell <;> cases x <;> simp [optionalAt, textAt, Cell.ofText?, bind, Except.bind,
    pure, Except.pure]

theorem intAt_eq_ok_iff {cell : Cell} {index : Nat} {column : String} {i : Int64} :
    intAt cell index column = .ok i ↔ cell = .int i := by
  cases cell <;> simp [intAt]

theorem ofRow_eq_ok_iff {r : StatusRow} {c : StatusColumns} :
    ofRow r = .ok c ↔
      r.id = .text c.id ∧ r.resourceType = .text c.key.resourceType ∧
      r.resourceId = .text c.key.resourceId ∧ r.adapter = .text c.key.adapter ∧
      r.observedGeneration = .int c.observedGeneration ∧ r.conditions = .text c.conditions ∧
      r.data = .ofText? c.data ∧ r.metadata = .ofText? c.metadata ∧
      r.createdTime = .text c.createdTime ∧ r.lastReportTime = .text c.lastReportTime := by
  simp only [ofRow, bind_eq_ok_iff, textAt_eq_ok_iff, optionalAt_eq_ok_iff, intAt_eq_ok_iff]
  constructor
  · rintro ⟨id, hid, type, htype, owner, howner, adapter, hadapter, generation,
      hgeneration, conditions, hconditions, data, hdata, metadata, hmetadata, created, hcreated,
      last, hlast, hc⟩
    cases hc
    exact ⟨hid, htype, howner, hadapter, hgeneration, hconditions, hdata, hmetadata,
      hcreated, hlast⟩
  · rintro ⟨hid, htype, howner, hadapter, hgeneration, hconditions, hdata, hmetadata,
      hcreated, hlast⟩
    exact ⟨_, hid, _, htype, _, howner, _, hadapter, _, hgeneration, _, hconditions, _,
      hdata, _, hmetadata, _, hcreated, _, hlast, rfl⟩

theorem record_eq_ok_iff {c : StatusColumns} {data : Except StoreError (Option Json.Value)}
    {metadata : Except StoreError (Option ExecutionMetadata)} {record : StatusRecord} :
    c.record data metadata = .ok record ↔
      Uuid.parse? c.id = some record.id ∧ data = .ok record.data ∧ metadata = .ok record.metadata ∧
      Instant.parseStrict? c.createdTime = some record.createdTime ∧
      Instant.parseStrict? c.lastReportTime = some record.lastReportTime ∧
      c.key = record.key ∧ c.observedGeneration = record.observedGeneration ∧
      c.conditions = record.conditions := by
  unfold StatusColumns.record
  cases hid : Uuid.parse? c.id with
  | none => simp only [bind_eq_ok_iff, throw_eq_ok_iff, false_and, exists_false, reduceCtorEq]
  | some id =>
      simp only [pure_bind, bind_eq_ok_iff, decodeTime_eq_ok_iff]
      constructor
      · rintro ⟨data', hdata, metadata', hmetadata, created, hcreated, last, hlast, hrecord⟩
        cases hrecord
        exact ⟨rfl, hdata, hmetadata, hcreated, hlast, rfl, rfl, rfl⟩
      · rintro ⟨hrecord, hdata, hmetadata, hcreated, hlast, hkey, hgeneration, hconditions⟩
        refine ⟨_, hdata, _, hmetadata, _, hcreated, _, hlast, ?_⟩
        cases record
        cases hrecord
        cases hkey
        cases hgeneration
        cases hconditions
        rfl

end StatusColumns

/-- The columns of a row, its data and metadata apart, say what a record says. -/
structure StatusRow.Says (r : StatusRow) (record : StatusRecord) : Prop where
  id : ∃ raw, r.id = .text raw ∧ Uuid.parse? raw = some record.id
  resourceType : r.resourceType = .text record.key.resourceType
  resourceId : r.resourceId = .text record.key.resourceId
  adapter : r.adapter = .text record.key.adapter
  observedGeneration : r.observedGeneration = .int record.observedGeneration
  conditions : r.conditions = .text record.conditions
  createdTime : ∃ raw,
    r.createdTime = .text raw ∧ Instant.parseStrict? raw = some record.createdTime
  lastReportTime : ∃ raw,
    r.lastReportTime = .text raw ∧ Instant.parseStrict? raw = some record.lastReportTime

namespace StatusRecord

/-- A row is read if its columns make sense and its data and metadata are what belongs there. -/
theorem ofRow_eq_ok_iff {r : StatusRow} {record : StatusRecord} :
    ofRow r = .ok record ↔
      r.Says record ∧
      (∃ raw, r.data = .ofText? raw ∧
        StatusColumns.jsonOf Json.readValue "adapter status data" raw = .ok record.data) ∧
      (∃ raw, r.metadata = .ofText? raw ∧
        StatusColumns.jsonOf ExecutionMetadata.read "adapter status metadata" raw =
          .ok record.metadata) := by
  simp only [ofRow, bind_eq_ok_iff, StatusColumns.ofRow_eq_ok_iff, StatusColumns.record_eq_ok_iff]
  constructor
  · rintro ⟨c, ⟨hid, htype, howner, hadapter, hgeneration, hconditions, hdata, hmetadata,
      hcreated, hlast⟩, hparse, hdata', hmetadata', hcreated', hlast', hkey,
      hgeneration', hconditions'⟩
    rw [hkey] at htype howner hadapter
    rw [hgeneration'] at hgeneration
    rw [hconditions'] at hconditions
    exact ⟨⟨⟨_, hid, hparse⟩, htype, howner, hadapter, hgeneration, hconditions,
      ⟨_, hcreated, hcreated'⟩, ⟨_, hlast, hlast'⟩⟩, ⟨_, hdata, hdata'⟩, ⟨_, hmetadata, hmetadata'⟩⟩
  · rintro ⟨⟨⟨idText, hid, hparse⟩, htype, howner, hadapter, hgeneration, hconditions,
      ⟨createdText, hcreated, hcreated'⟩, ⟨lastText, hlast, hlast'⟩⟩, ⟨dataText, hdata, hdata'⟩,
      ⟨metadataText, hmetadata, hmetadata'⟩⟩
    exact ⟨⟨idText, record.key, record.observedGeneration, record.conditions,
      dataText, metadataText, createdText, lastText⟩,
      ⟨hid, htype, howner, hadapter, hgeneration, hconditions, hdata, hmetadata,
      hcreated, hlast⟩, hparse, hdata', hmetadata', hcreated', hlast', rfl, rfl, rfl⟩

/-- A row that is about to be overwritten says what its record says. -/
theorem says_of_ofRowForUpdate {r : StatusRow} {record : StatusRecord}
    (h : ofRowForUpdate r = .ok record) : r.Says record := by
  simp only [ofRowForUpdate, bind_eq_ok_iff, StatusColumns.ofRow_eq_ok_iff,
    StatusColumns.record_eq_ok_iff] at h
  obtain ⟨c, ⟨hid, htype, howner, hadapter, hgeneration, hconditions, -, -, hcreated, hlast⟩,
    hparse, -, -, hcreated', hlast', hkey, hgeneration', hconditions'⟩ := h
  rw [hkey] at htype howner hadapter
  rw [hgeneration'] at hgeneration
  rw [hconditions'] at hconditions
  exact ⟨⟨_, hid, hparse⟩, htype, howner, hadapter, hgeneration, hconditions,
    ⟨_, hcreated, hcreated'⟩, ⟨_, hlast, hlast'⟩⟩

theorem says_of_ofRow {r : StatusRow} {record : StatusRecord} (h : ofRow r = .ok record) :
    r.Says record :=
  (ofRow_eq_ok_iff.mp h).1

/-- More patience changes nothing about a row that is read without it. -/
theorem ofRowForUpdate_of_ofRow {r : StatusRow} {record : StatusRecord} (h : ofRow r = .ok record) :
    ofRowForUpdate r = .ok record := by
  simp only [ofRow, ofRowForUpdate, bind_eq_ok_iff] at h ⊢
  obtain ⟨c, hc, hrecord⟩ := h
  refine ⟨c, hc, ?_⟩
  rw [StatusColumns.record_eq_ok_iff] at hrecord ⊢
  rw [hrecord.2.1, hrecord.2.2.1]
  exact ⟨hrecord.1, rfl, rfl, hrecord.2.2.2⟩

/-- A record is a status if its conditions are read, and the status has all else as it is. -/
theorem toStatus_eq_ok_iff {record : StatusRecord} {status : AdapterStatus} :
    record.toStatus = .ok status ↔ ∃ d, Document.parse record.conditions = .ok d ∧
      { id := record.id, key := record.key, observedGeneration := record.observedGeneration,
        conditions := d, data := record.data, metadata := record.metadata,
        createdTime := record.createdTime, lastReportTime := record.lastReportTime } = status := by
  simp only [toStatus, bind_eq_ok_iff, pure, Except.pure, Except.ok.injEq]

/-- What is wrong with a record that is no status is wrong with its conditions. -/
theorem toStatus_eq_error_iff {record : StatusRecord} {e : DocumentError} :
    record.toStatus = .error e ↔ Document.parse record.conditions = .error e := by
  unfold toStatus
  cases Document.parse record.conditions <;> simp [bind, Except.bind, pure, Except.pure]

end StatusRecord

/-! ## Resources -/

theorem resourceText_eq_ok_iff {cell : Cell} {column s : String} :
    resourceText cell column = .ok s ↔ cell = .text s := by
  cases cell <;> simp [resourceText]

/-- The columns of a row say what a resource is. -/
structure ResourceRow.Says (r : ResourceRow) (resource : Resource) : Prop where
  id : ∃ raw, r.id = .text raw ∧ Uuid.parse? raw = some resource.id
  kind : r.kind = .text resource.kind
  name : r.name = .text resource.name
  labels : ∃ raw, r.labels = .text raw ∧
    Json.decode? (Json.readDict Json.readText) raw = some resource.labels
  spec : ∃ raw, r.spec = .text raw ∧ Json.decode? Json.readValue raw = some resource.spec
  generation : r.generation = .int resource.generation
  statusConditions : ∃ raw, r.statusConditions = .text raw ∧
    Document.parse raw = .ok resource.statusConditions
  createdTime : ∃ raw,
    r.createdTime = .text raw ∧ Instant.parseStrict? raw = some resource.createdTime
  updatedTime : ∃ raw,
    r.updatedTime = .text raw ∧ Instant.parseStrict? raw = some resource.updatedTime

namespace Resource

/-- A row is read if its columns make sense. -/
theorem ofRow_eq_ok_iff {r : ResourceRow} {resource : Resource} :
    ofRow r = .ok resource ↔ r.Says resource := by
  unfold ofRow
  constructor
  · intro h
    obtain ⟨idText, hid, h⟩ := bind_eq_ok_iff.mp h
    rw [resourceText_eq_ok_iff] at hid
    cases hgeneration : r.generation with
    | null | real _ | infinite _ | text _ | blob _ =>
        simp only [hgeneration, bind_eq_ok_iff, throw_eq_ok_iff, false_and, exists_false] at h
    | int generation =>
        simp only [hgeneration, pure_bind] at h
        obtain ⟨conditions, hconditions, h⟩ := bind_eq_ok_iff.mp h
        rw [resourceText_eq_ok_iff] at hconditions
        cases hparse : Uuid.parse? idText with
        | none => simp only [hparse, bind_eq_ok_iff, throw_eq_ok_iff, false_and, exists_false] at h
        | some id =>
            cases hdocument : Document.parse conditions with
            | error e =>
                simp only [hparse, hdocument, bind_eq_ok_iff, throw_eq_ok_iff, false_and, and_false,
                  exists_false] at h
            | ok d =>
                simp only [hparse, hdocument, bind_eq_ok_iff, resourceText_eq_ok_iff,
                  decodeJson_eq_ok_iff, decodeTime_eq_ok_iff] at h
                obtain ⟨kind, hkind, name, hname, labelsText, hlabels, labels, hlabels',
                  specText, hspec, spec, hspec', createdText, hcreated, created, hcreated',
                  updatedText, hupdated, updated, hupdated', hresource⟩ := h
                cases hresource
                exact ⟨⟨_, hid, hparse⟩, hkind, hname, ⟨_, hlabels, hlabels'⟩,
                  ⟨_, hspec, hspec'⟩, hgeneration, ⟨_, hconditions, hdocument⟩,
                  ⟨_, hcreated, hcreated'⟩, ⟨_, hupdated, hupdated'⟩⟩
  · rintro ⟨⟨idText, hid, hparse⟩, hkind, hname, ⟨labelsText, hlabels, hlabels'⟩,
      ⟨specText, hspec, hspec'⟩, hgeneration, ⟨conditions, hconditions, hdocument⟩,
      ⟨createdText, hcreated, hcreated'⟩, ⟨updatedText, hupdated, hupdated'⟩⟩
    refine bind_eq_ok_iff.mpr ⟨idText, resourceText_eq_ok_iff.mpr hid, ?_⟩
    simp only [hgeneration, pure_bind]
    refine bind_eq_ok_iff.mpr ⟨conditions, resourceText_eq_ok_iff.mpr hconditions, ?_⟩
    simp only [hparse, hdocument, bind_eq_ok_iff, resourceText_eq_ok_iff, decodeJson_eq_ok_iff,
      decodeTime_eq_ok_iff]
    exact ⟨_, hkind, _, hname, _, hlabels, _, hlabels', _, hspec, _, hspec', _, hcreated,
      _, hcreated', _, hupdated, _, hupdated', rfl⟩

end Resource
end StatusBoard

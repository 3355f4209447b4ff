import StatusBoard.Proofs.Json.Again
import StatusBoard.Proofs.Store.Written
set_option autoImplicit false

/-!
# Store: what is written is read back

A write is committed only if it can be read back.  It can be, unless its time is of a year that rows
have no room for, or its data or spec nests deeper than anything that is read.
-/

namespace StatusBoard

/-! ## Metadata -/

namespace ExecutionMetadata

/-- The fields in the order of their declaration. -/
def fieldNames : List String :=
  ["jobName", "jobNamespace", "attempt", "startedTime", "completedTime"]

/-- The members that metadata are written with. -/
def members (m : ExecutionMetadata) : List (String × Json.Value) :=
  Json.optionalMember "jobName" .text m.jobName ++
  Json.optionalMember "jobNamespace" .text m.jobNamespace ++
  Json.optionalMember "attempt" (fun n => Json.writeNat n.toNat) m.attempt ++
  Json.optionalMember "startedTime" Json.writeInstant m.startedTime ++
  Json.optionalMember "completedTime" Json.writeInstant m.completedTime

theorem write_eq (m : ExecutionMetadata) : m.write = .object m.members := rfl

theorem keys_members (m : ExecutionMetadata) : (m.members.map (·.1)).Sublist fieldNames := by
  have hparts : fieldNames = ["jobName"] ++ ["jobNamespace"] ++ ["attempt"] ++ ["startedTime"] ++
      ["completedTime"] := rfl
  rw [hparts]
  simp only [members, List.map_append]
  refine List.Sublist.append (List.Sublist.append (List.Sublist.append
    (List.Sublist.append ?_ ?_) ?_) ?_) ?_
  all_goals exact Json.keys_optionalMember ..

/-- Metadata are read back as they were written. -/
@[simp] theorem read_write (m : ExecutionMetadata) (depth : Nat) :
    read (depth + 1) m.write.tree = some m := by
  have hfields := Json.readFields_object (show fieldNames.Nodup by decide)
      m.keys_members .wire depth
  have hnumber : ∀ n ∈ m.attempt, (Json.writeNat n.toNat).tree ≠ .null := by
    simp [Json.writeNat, Json.Value.int, Json.Value.tree]
  have hjobName := Json.optional_text depth
    (show Json.memberOf m.members "jobName" = m.jobName.map .text by simp [members])
  have hjobNamespace := Json.optional_text depth
    (show Json.memberOf m.members "jobNamespace" = m.jobNamespace.map .text by simp [members])
  have hattempt := Json.optional_entries
    (show Json.memberOf m.members "attempt" = m.attempt.map fun n => Json.writeNat n.toNat by
      simp [members])
    (fun n _ => Json.readUInt32_writeNat depth n) hnumber
  have hstarted := Json.optional_instant depth
    (show Json.memberOf m.members "startedTime" = m.startedTime.map _ by simp [members])
  have hcompleted := Json.optional_instant depth
    (show Json.memberOf m.members "completedTime" = m.completedTime.map _ by simp [members])
  rw [read, write_eq]
  change (Json.readFields .wire fieldNames (depth + 1) (Json.Value.object m.members).tree).bind _ = _
  simp only [hfields, Option.bind_eq_bind, Option.bind_some, hjobName, hjobNamespace, hattempt,
    hstarted, hcompleted]

theorem decode?_render (m : ExecutionMetadata) : Json.decode? read m.write.render = some m := by
  rw [Json.decode?, Json.parse?_render, Option.bind_some]
  exact m.read_write 126

end ExecutionMetadata

/-! ## Reports -/

namespace Report

/-- The report is one that can be received: its data, if there is any, is such as is read. -/
def IsReceivable (r : Report) : Prop :=
  ∀ v ∈ r.data, v.Fits Json.depthLimit

/-- The data of a report that is read from a text is read from a part of the text. -/
theorem data_of_decode? {raw : String} {r : Report} (h : Json.decode? read raw = some r)
    {v : Json.Value} (hv : v ∈ r.data) :
    ∃ depth tree, depth ≤ Json.depthLimit ∧ Json.Value.ofTree? depth tree = some v := by
  obtain ⟨tree, -, hread⟩ := Option.bind_eq_some_iff.mp h
  obtain ⟨fields, hfields, hread⟩ := Option.bind_eq_some_iff.mp hread
  obtain ⟨adapter, -, hread⟩ := Option.bind_eq_some_iff.mp hread
  obtain ⟨generation, -, hread⟩ := Option.bind_eq_some_iff.mp hread
  obtain ⟨time, -, hread⟩ := Option.bind_eq_some_iff.mp hread
  obtain ⟨conditions, -, hread⟩ := Option.bind_eq_some_iff.mp hread
  obtain ⟨data, hdata, hread⟩ := Option.bind_eq_some_iff.mp hread
  obtain ⟨metadata, -, hread⟩ := Option.bind_eq_some_iff.mp hread
  cases hread
  obtain ⟨dataTree, -, hv⟩ := Json.Fields.of_optional hdata v hv
  have hdepth := Json.depth_of_readFields hfields
  exact ⟨fields.depth, dataTree, by omega, hv⟩

/-- Every report that is read from a text can be received. -/
theorem isReceivable_of_decode? {raw : String} {r : Report} (h : Json.decode? read raw = some r) :
    r.IsReceivable := by
  intro v hv
  obtain ⟨depth, tree, hdepth, htree⟩ := data_of_decode? h hv
  exact (Json.fits_of_ofTree? _ _ htree).mono hdepth

/-- The data of the report, if there is any, can be read again from the text that a row keeps of it. -/
def IsReadable (r : Report) : Prop :=
  ∀ v ∈ r.data, v.IsReadable

theorem IsReceivable.isReadable {r : Report} (h : r.IsReceivable) : r.IsReadable :=
  fun v hv => (h v hv).isReadable

/-- Data can be read again exactly if it nests no deeper than a document may. -/
theorem isReadable_iff {r : Report} (htidy : ∀ v ∈ r.data, v.IsTidy) :
    r.IsReadable ↔ ∀ v ∈ r.data, Json5.nesting v ≤ Json.depthLimit :=
  forall₂_congr fun v hv => (htidy v hv).isReadable_iff

/-- Every report that is read from a text has tidy data. -/
theorem isTidy_of_decode? {raw : String} {r : Report} (h : Json.decode? read raw = some r) :
    ∀ v ∈ r.data, v.IsTidy := by
  intro v hv
  obtain ⟨depth, tree, -, htree⟩ := data_of_decode? h hv
  exact Json.isTidy_of_ofTree? _ _ htree

end Report

/-! ## Rows -/

namespace StatusWrite

/-- What is written can be kept in a row: its data, if there is any, can be read again, and its time is
of a year that rows have room for. -/
structure IsKeepable (w : StatusWrite) : Prop where
  data : ∀ v ∈ w.data, v.IsReadable
  years : 0 ≤ w.now.date.year ∧ w.now.date.year ≤ 9999

variable {w : StatusWrite}

theorem IsKeepable.exists_data (h : w.IsKeepable) : ∃ raw data, w.dataCell = .ofText? raw ∧
    StatusColumns.jsonOf Json.readValue "adapter status data" raw = .ok data := by
  unfold dataCell
  cases hdata : w.data with
  | none => exact ⟨none, none, rfl, rfl⟩
  | some v =>
      obtain ⟨read, hread⟩ := h.data v hdata
      have hdecode : decodeJson Json.readValue "adapter status data" v.render = .ok read :=
        decodeJson_eq_ok_iff.mpr hread
      refine ⟨some v.render, some read, rfl, ?_⟩
      simp [StatusColumns.jsonOf, hdecode, bind, Except.bind, pure, Except.pure]

theorem exists_metadata (w : StatusWrite) : ∃ raw metadata, w.metadataCell = .ofText? raw ∧
    StatusColumns.jsonOf ExecutionMetadata.read "adapter status metadata" raw = .ok metadata := by
  unfold metadataCell
  cases w.metadata with
  | none => exact ⟨none, none, rfl, rfl⟩
  | some m =>
      have hdecode : decodeJson ExecutionMetadata.read "adapter status metadata" m.write.render =
          .ok m := decodeJson_eq_ok_iff.mpr m.decode?_render
      refine ⟨some m.write.render, some m, rfl, ?_⟩
      simp [StatusColumns.jsonOf, hdecode, bind, Except.bind, pure, Except.pure]

/-- A row that is added, its data and metadata apart, says what was written. -/
theorem says_toRow (hyears : 0 ≤ w.now.date.year ∧ w.now.date.year ≤ 9999) (id : Uuid)
    (key : StatusKey) : (w.toRow id key).Says {
      id, key, observedGeneration := w.observedGeneration, conditions := w.conditions
      data := none, metadata := none
      createdTime := w.now.truncateMicros, lastReportTime := w.now.truncateMicros } := by
  have htime := Instant.parseStrict?_toStorageText hyears
  exact ⟨⟨_, rfl, Uuid.parse?_toText id⟩, rfl, rfl, rfl, rfl, rfl, ⟨_, rfl, htime⟩, ⟨_, rfl, htime⟩⟩

/-- A row that is overwritten says what it said of itself, and what was written. -/
theorem says_applyTo (hyears : 0 ≤ w.now.date.year ∧ w.now.date.year ≤ 9999) {row : StatusRow}
    {previous : StatusRecord} (h : row.Says previous) : (w.applyTo row).Says { previous with
      observedGeneration := w.observedGeneration, conditions := w.conditions
      lastReportTime := w.now.truncateMicros } := by
  have htime := Instant.parseStrict?_toStorageText hyears
  exact ⟨h.id, h.resourceType, h.resourceId, h.adapter, rfl, rfl, h.createdTime, ⟨_, rfl, htime⟩⟩

section Rows

variable {row : StatusRow} {record : StatusRecord}

/-- A row that holds what is written, beside columns that are read, is read. -/
theorem IsKeepable.exists_ofRow (h : w.IsKeepable) (hcolumns : row.Says record)
    (hdata : row.data = w.dataCell) (hmetadata : row.metadata = w.metadataCell) :
    ∃ found, StatusRecord.ofRow row = .ok found ∧ found.conditions = record.conditions := by
  obtain ⟨dataText, data, hdataText, hreadData⟩ := h.exists_data
  obtain ⟨metadataText, metadata, hmetadataText, hreadMetadata⟩ := w.exists_metadata
  refine ⟨{ record with data, metadata }, ?_, rfl⟩
  refine StatusRecord.ofRow_eq_ok_iff.mpr ⟨?_, ⟨dataText, hdata.trans hdataText, hreadData⟩,
    ⟨metadataText, hmetadata.trans hmetadataText, hreadMetadata⟩⟩
  exact ⟨hcolumns.id, hcolumns.resourceType, hcolumns.resourceId, hcolumns.adapter,
    hcolumns.observedGeneration, hcolumns.conditions, hcolumns.createdTime, hcolumns.lastReportTime⟩

/-- A row that holds data which cannot be read again is not read, for its data. -/
theorem ofRow_of_unreadable (h : ¬ ∀ v ∈ w.data, v.IsReadable) (hcolumns : row.Says record)
    (hdata : row.data = w.dataCell) (hmetadata : row.metadata = w.metadataCell) :
    StatusRecord.ofRow row = .error (.corrupt (.json "adapter status data")) := by
  obtain ⟨v, hv, hunreadable⟩ : ∃ v, w.data = some v ∧ ¬ v.IsReadable := by
    simpa using h
  have hdecode : decodeJson Json.readValue "adapter status data" v.render =
      .error (.corrupt (.json "adapter status data")) := by
    unfold decodeJson
    rw [Option.eq_none_iff_forall_ne_some.mpr fun u hu => hunreadable ⟨u, hu⟩]
  obtain ⟨idText, hid, hparse⟩ := hcolumns.id
  obtain ⟨createdText, hcreated, -⟩ := hcolumns.createdTime
  obtain ⟨lastText, hlast, -⟩ := hcolumns.lastReportTime
  have hread : StatusColumns.ofRow row = .ok {
      id := idText, key := record.key, observedGeneration := record.observedGeneration
      conditions := record.conditions, data := some v.render
      metadata := w.metadata.map fun m => m.write.render
      createdTime := createdText, lastReportTime := lastText } :=
    StatusColumns.ofRow_eq_ok_iff.mpr ⟨hid, hcolumns.resourceType, hcolumns.resourceId,
      hcolumns.adapter, hcolumns.observedGeneration, hcolumns.conditions,
      by rw [hdata, dataCell, hv]; rfl, hmetadata, hcreated, hlast⟩
  simp only [StatusRecord.ofRow, hread, StatusColumns.record, hparse, StatusColumns.dataOf,
    StatusColumns.jsonOf, hdecode, bind, Except.bind, pure, Except.pure]

end Rows

/-- A row that is added is read back. -/
theorem IsKeepable.exists_ofRow_toRow (h : w.IsKeepable) (id : Uuid) (key : StatusKey) :
    ∃ record, StatusRecord.ofRow (w.toRow id key) = .ok record ∧
      record.conditions = w.conditions :=
  h.exists_ofRow (says_toRow h.years id key) rfl rfl

/-- A row that was read is read back after it is overwritten. -/
theorem IsKeepable.exists_ofRow_applyTo (h : w.IsKeepable) {row : StatusRow} {previous : StatusRecord}
    (hcolumns : row.Says previous) :
    ∃ record, StatusRecord.ofRow (w.applyTo row) = .ok record ∧
      record.conditions = w.conditions :=
  h.exists_ofRow (says_applyTo h.years hcolumns) rfl rfl

end StatusWrite

/-! ## Resources -/

namespace NewResource

/-- The resource is one that can be asked for: its spec is such as is read. -/
def IsReceivable (new : NewResource) : Prop :=
  new.spec.Fits Json.depthLimit

/-- The labels of a resource that is asked for in a text are in order, and its spec, if there is any,
is read from a part of the text. -/
theorem parts_of_decode? {raw : String} {new : NewResource}
    (h : Json.decode? read raw = some new) :
    new.labels.Sorted ∧ (new.spec = .null ∨
      ∃ depth tree, depth ≤ Json.depthLimit ∧ Json.Value.ofTree? depth tree = some new.spec) := by
  obtain ⟨tree, -, hread⟩ := Option.bind_eq_some_iff.mp h
  obtain ⟨fields, hfields, hread⟩ := Option.bind_eq_some_iff.mp hread
  obtain ⟨name, -, hread⟩ := Option.bind_eq_some_iff.mp hread
  obtain ⟨labels, hlabels, hread⟩ := Option.bind_eq_some_iff.mp hread
  obtain ⟨spec, hspec, hread⟩ := Option.bind_eq_some_iff.mp hread
  cases hread
  have hdepth := Json.depth_of_readFields hfields
  constructor
  · obtain rfl | ⟨tree, htree⟩ := Json.Fields.of_orDefault hlabels
    · exact List.Pairwise.nil
    · exact Json.sorted_of_readDict htree
  · refine (Json.Fields.of_orDefault hspec).imp_right ?_
    rintro ⟨tree, htree⟩
    exact ⟨fields.depth, tree, by omega, htree⟩

/-- Every resource that is asked for in a text can be asked for. -/
theorem isReceivable_of_decode? {raw : String} {new : NewResource}
    (h : Json.decode? read raw = some new) : new.IsReceivable := by
  unfold IsReceivable
  obtain ⟨-, hnull | ⟨depth, tree, hdepth, htree⟩⟩ := parts_of_decode? h
  · rw [hnull]
    exact .null _
  · exact (Json.fits_of_ofTree? _ _ htree).mono hdepth

/-- Every resource that is asked for in a text has labels in order and a tidy spec. -/
theorem isTidy_of_decode? {raw : String} {new : NewResource}
    (h : Json.decode? read raw = some new) : new.labels.Sorted ∧ new.spec.IsTidy := by
  obtain ⟨hsorted, hnull | ⟨depth, tree, -, htree⟩⟩ := parts_of_decode? h
  · rw [hnull]
    exact ⟨hsorted, .null⟩
  · exact ⟨hsorted, Json.isTidy_of_ofTree? _ _ htree⟩

/-- The row of a new resource is read back. -/
theorem IsReceivable.exists_ofRow_toRow {new : NewResource} (h : new.IsReceivable) (id : Uuid)
    (kind : String) {now : Instant} (hnow : 0 ≤ now.date.year ∧ now.date.year ≤ 9999) :
    ∃ x, Resource.ofRow (new.toRow id kind now) = .ok x ∧ x.id = id ∧ x.kind = kind ∧
      x.name = new.name ∧ x.statusConditions = .empty := by
  obtain ⟨spec, hspec⟩ := h.isReadable
  have htime := Instant.parseStrict?_toStorageText hnow
  let told : Resource := {
    id, kind, name := new.name, labels := Dict.ofPairs new.labels, spec, generation := 1
    statusConditions := .empty, createdTime := now.truncateMicros
    updatedTime := now.truncateMicros }
  refine ⟨told, Resource.ofRow_eq_ok_iff.mpr ?_, rfl, rfl, rfl, rfl⟩
  exact ⟨⟨_, rfl, Uuid.parse?_toText id⟩, rfl, rfl, ⟨_, rfl, decode?_writeTexts new.labels⟩,
    ⟨_, rfl, hspec⟩, rfl, ⟨_, rfl, Document.parse_empty⟩, ⟨_, rfl, htime⟩, ⟨_, rfl, htime⟩⟩

end NewResource
end StatusBoard

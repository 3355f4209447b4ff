import StatusBoard.Proofs.Json.Again
import StatusBoard.Proofs.Store.Reading
set_option autoImplicit false

/-!
# Report: reports and statuses read again

A report and a status are records with one opaque field.  Whatever is in their other fields is read
again as it was written: names and texts of any characters, all numbers, and all times.
-/

namespace StatusBoard

open Json (Value IsStable ReadsBack)

/-! ## Conditions that are sent -/

namespace ConditionInput

/-- The members that a condition is written with. -/
def members (c : ConditionInput) : List (String × Value) :=
  [("type", .text c.type), ("status", .text c.status.word)] ++
  Json.optionalMember "reason" .text c.reason ++ Json.optionalMember "message" .text c.message

theorem write_eq (c : ConditionInput) : c.write = .object c.members := rfl

theorem keys_members (c : ConditionInput) : (c.members.map (·.1)).Sublist fieldNames := by
  have hparts : fieldNames = ["type", "status"] ++ ["reason"] ++ ["message"] := rfl
  rw [hparts]
  simp only [members, List.map_append]
  refine List.Sublist.append (List.Sublist.append ?_ ?_) ?_
  · exact List.Sublist.refl _
  · exact Json.keys_optionalMember ..
  · exact Json.keys_optionalMember ..

/-- A condition is read back as it was sent. -/
@[simp] theorem read_write (c : ConditionInput) (depth : Nat) :
    read (depth + 1) c.write.tree = some c := by
  have hfields := Json.readFields_object (show fieldNames.Nodup by decide)
      c.keys_members .wire depth
  have htype : Json.memberOf c.members "type" = some (.text c.type) := rfl
  have hstatus : Json.memberOf c.members "status" = some (.text c.status.word) := by
    simp [members]
  have hreason : Json.memberOf c.members "reason" = c.reason.map .text := by simp [members]
  have hmessage : Json.memberOf c.members "message" = c.message.map .text := by simp [members]
  have hword : ConditionStatus.read depth (Value.text c.status.word).tree = some c.status := by
    simp [Value.tree, ConditionStatus.read]
  rw [read, write_eq, hfields]
  simp only [Option.bind_eq_bind, Option.bind_some,
    Json.required_entries htype (Json.readText_text depth c.type),
    Json.required_entries hstatus hword, Json.optional_text depth hreason,
    Json.optional_text depth hmessage]

end ConditionInput

/-- Metadata are read back in a record around them. -/
theorem ExecutionMetadata.optional_entries {depth : Nat} {members : List (String × Value)}
    {name : String} {x : Option ExecutionMetadata}
    (h : Json.memberOf members name = x.map ExecutionMetadata.write) :
    Json.Fields.optional { depth := depth + 1, entries := members.map fun m => (m.1, m.2.tree) } name
      ExecutionMetadata.read = some x :=
  Json.optional_entries h (fun m _ => m.read_write depth) (by simp [write_eq, Value.tree])

/-! ## Reports -/

namespace Report

variable {r : Report}

/-- The fields in the order of their declaration. -/
def fieldNames : List String :=
  ["adapter", "observedGeneration", "observedTime", "conditions", "data", "metadata"]

/-- The members that a report is written with. -/
def members (r : Report) : List (String × Value) :=
  [("adapter", .text r.adapter), ("observedGeneration", Json.writeInt64 r.observedGeneration)] ++
  Json.optionalMember "observedTime" Json.writeInstant r.observedTime ++
  [("conditions", .array (r.conditions.map ConditionInput.write))] ++
  Json.optionalMember "data" (fun v => v) r.data ++
  Json.optionalMember "metadata" ExecutionMetadata.write r.metadata

theorem write_eq (r : Report) : r.write = .object r.members := rfl

theorem keys_members (r : Report) : (r.members.map (·.1)).Sublist fieldNames := by
  have hparts : fieldNames = ["adapter", "observedGeneration"] ++ ["observedTime"] ++
      ["conditions"] ++ ["data"] ++ ["metadata"] := rfl
  rw [hparts]
  simp only [members, List.map_append]
  refine List.Sublist.append (List.Sublist.append (List.Sublist.append
    (List.Sublist.append ?_ ?_) ?_) ?_) ?_
  · exact List.Sublist.refl _
  · exact Json.keys_optionalMember ..
  · exact List.Sublist.refl _
  · exact Json.keys_optionalMember ..
  · exact Json.keys_optionalMember ..

theorem mem_members_of_data {v : Value} (h : v ∈ r.data) : ("data", v) ∈ r.members := by
  have hdata : ("data", v) ∈ Json.optionalMember "data" (fun v => v) r.data :=
    Json.mem_optionalMember h
  simp [members, hdata]

/-- A report with other data is the same, fractions apart, if its data is. -/
theorem blurred_write_of_data {data : Option Value}
    (h : data.map Value.blurred = r.data.map Value.blurred) :
    ({ r with data } : Report).write.blurred = r.write.blurred := by
  simp only [write_eq, members, Value.blurred, Json.blurredMembers_append,
    Json.blurredMembers_optionalMember, h]

/-- A report is read back as it was written, but for fractions in its data. -/
theorem exists_read_write {depth : Nat} (hdata : ∀ v ∈ r.data, v.IsKept (depth + 2) ∧ v ≠ .null) :
    ∃ data, read (depth + 3) r.write.tree = some { r with data } ∧
      data.map Value.blurred = r.data.map Value.blurred := by
  have hfields := Json.readFields_object (show fieldNames.Nodup by decide)
      r.keys_members .wire (depth + 2)
  have hadapter : Json.memberOf r.members "adapter" = some (.text r.adapter) := rfl
  have hgeneration : Json.memberOf r.members "observedGeneration" =
      some (Json.writeInt64 r.observedGeneration) := by simp [members]
  have htime : Json.memberOf r.members "observedTime" = r.observedTime.map Json.writeInstant := by
    simp [members]
  have hconditions : Json.memberOf r.members "conditions" =
      some (.array (r.conditions.map ConditionInput.write)) := by simp [members]
  have hlist : Json.readList ConditionInput.read (depth + 2)
      (Value.array (r.conditions.map ConditionInput.write)).tree = some r.conditions :=
    Json.readList_array fun c _ => c.read_write depth
  have hmetadata : Json.memberOf r.members "metadata" =
      r.metadata.map ExecutionMetadata.write := by simp [members]
  have hmember : Json.memberOf r.members "data" = r.data := by simp [members]
  obtain ⟨data, hread, hsame⟩ := Json.exists_optional_entries hmember hdata
  refine ⟨data, ?_, hsame⟩
  rw [read, write_eq]
  change (Json.readFields .wire fieldNames _ (Value.object r.members).tree).bind _ = _
  simp only [hfields, Option.bind_eq_bind, Option.bind_some,
    Json.required_entries hadapter (Json.readText_text (depth + 2) r.adapter),
    Json.required_entries hgeneration (Json.readInt64_writeInt64 (depth + 2) r.observedGeneration),
    Json.optional_instant (depth + 2) htime, Json.default_entries hconditions hlist, hread,
    ExecutionMetadata.optional_entries hmetadata]

theorem readsBack (hdata : ∀ v ∈ r.data, v.IsKept 126 ∧ v ≠ .null) : ReadsBack read write r := by
  obtain ⟨data, hread, hsame⟩ := exists_read_write hdata
  refine ⟨{ r with data }, (Json.decode?_render_eq r).trans hread, blurred_write_of_data hsame, ?_⟩
  intro hwhole
  rw [Json.eq_of_map_blurred_eq hsame fun v hv =>
    Json.isWhole_of_mem hwhole (mem_members_of_data hv)]

/-- A report without fractions is read back as it was written, unless it nests too deep. -/
theorem decode?_render (htidy : ∀ v ∈ r.data, v.IsTidy ∧ v ≠ .null)
    (hwhole : r.write.isWhole = true) (hnesting : Json5.nesting r.write ≤ Json.depthLimit) :
    Json.decode? read r.write.render = some r :=
  (readsBack fun v hv => ⟨(htidy v hv).1.isKept_of_mem (mem_members_of_data hv) hnesting,
    (htidy v hv).2⟩).decode?_render hwhole

theorem isStable : IsStable read write := by
  intro raw r h
  refine readsBack ?_
  obtain ⟨tree, -, hread⟩ := Option.bind_eq_some_iff.mp h
  obtain ⟨fields, hfields, hread⟩ := Option.bind_eq_some_iff.mp hread
  obtain ⟨adapter, -, hread⟩ := Option.bind_eq_some_iff.mp hread
  obtain ⟨generation, -, hread⟩ := Option.bind_eq_some_iff.mp hread
  obtain ⟨time, -, hread⟩ := Option.bind_eq_some_iff.mp hread
  obtain ⟨conditions, -, hread⟩ := Option.bind_eq_some_iff.mp hread
  obtain ⟨data, hdata, hread⟩ := Option.bind_eq_some_iff.mp hread
  obtain ⟨metadata, -, hread⟩ := Option.bind_eq_some_iff.mp hread
  cases hread
  have hdepth : fields.depth = 126 := Nat.succ_injective (Json.depth_of_readFields hfields)
  exact hdepth ▸ Json.Fields.isKept_of_optional hdata

end Report

/-! ## Statuses -/

namespace AdapterStatus

variable {s : AdapterStatus}

/-- The fields in the order of their declaration. -/
def fieldNames : List String :=
  ["id", "resourceType", "resourceId", "adapter", "observedGeneration", "conditions", "data",
   "metadata", "createdTime", "lastReportTime"]

/-- The members that a status is written with. -/
def members (s : AdapterStatus) : List (String × Value) :=
  [("id", .text s.id.toText), ("resourceType", .text s.key.resourceType),
   ("resourceId", .text s.key.resourceId), ("adapter", .text s.key.adapter),
   ("observedGeneration", Json.writeInt64 s.observedGeneration),
   ("conditions", s.conditions.write)] ++
  Json.optionalMember "data" (fun v => v) s.data ++
  Json.optionalMember "metadata" ExecutionMetadata.write s.metadata ++
  [("createdTime", Json.writeInstant s.createdTime),
   ("lastReportTime", Json.writeInstant s.lastReportTime)]

theorem write_eq (s : AdapterStatus) : s.write = .object s.members := rfl

theorem keys_members (s : AdapterStatus) : (s.members.map (·.1)).Sublist fieldNames := by
  have hparts : fieldNames = ["id", "resourceType", "resourceId", "adapter", "observedGeneration",
      "conditions"] ++ ["data"] ++ ["metadata"] ++ ["createdTime", "lastReportTime"] := rfl
  rw [hparts]
  simp only [members, List.map_append]
  refine List.Sublist.append (List.Sublist.append (List.Sublist.append ?_ ?_) ?_) ?_
  · exact List.Sublist.refl _
  · exact Json.keys_optionalMember ..
  · exact Json.keys_optionalMember ..
  · exact List.Sublist.refl _

theorem mem_members_of_data {v : Value} (h : v ∈ s.data) : ("data", v) ∈ s.members := by
  have hdata : ("data", v) ∈ Json.optionalMember "data" (fun v => v) s.data :=
    Json.mem_optionalMember h
  simp [members, hdata]

/-- A status with other data is the same, fractions apart, if its data is. -/
theorem blurred_write_of_data {data : Option Value}
    (h : data.map Value.blurred = s.data.map Value.blurred) :
    ({ s with data } : AdapterStatus).write.blurred = s.write.blurred := by
  simp only [write_eq, members, Value.blurred, Json.blurredMembers_append,
    Json.blurredMembers_optionalMember, h]

/-- A status is read back as it was written, but for fractions in its data. -/
theorem exists_read_write {depth : Nat} (hdata : ∀ v ∈ s.data, v.IsKept (depth + 2) ∧ v ≠ .null) :
    ∃ data, read (depth + 3) s.write.tree = some { s with data } ∧
      data.map Value.blurred = s.data.map Value.blurred := by
  have hfields := Json.readFields_object (show fieldNames.Nodup by decide)
      s.keys_members .wire (depth + 2)
  have hid : Json.memberOf s.members "id" = some (.text s.id.toText) := rfl
  have huuid : Json.readUuid (depth + 2) (Value.text s.id.toText).tree = some s.id :=
    Uuid.parse?_toText s.id
  have htype : Json.memberOf s.members "resourceType" = some (.text s.key.resourceType) := by
    simp [members]
  have hresource : Json.memberOf s.members "resourceId" = some (.text s.key.resourceId) := by
    simp [members]
  have hadapter : Json.memberOf s.members "adapter" = some (.text s.key.adapter) := by
    simp [members]
  have hgeneration : Json.memberOf s.members "observedGeneration" =
      some (Json.writeInt64 s.observedGeneration) := by simp [members]
  have hconditions : Json.memberOf s.members "conditions" = some s.conditions.write := by
    simp [members]
  have hmetadata : Json.memberOf s.members "metadata" =
      s.metadata.map ExecutionMetadata.write := by simp [members]
  have hcreated : Json.memberOf s.members "createdTime" =
      some (Json.writeInstant s.createdTime) := by simp [members]
  have hlast : Json.memberOf s.members "lastReportTime" =
      some (Json.writeInstant s.lastReportTime) := by simp [members]
  have hmember : Json.memberOf s.members "data" = s.data := by simp [members]
  obtain ⟨data, hread, hsame⟩ := Json.exists_optional_entries hmember hdata
  refine ⟨data, ?_, hsame⟩
  rw [read, write_eq]
  change (Json.readFields .wire fieldNames _ (Value.object s.members).tree).bind _ = _
  simp only [hfields, Option.bind_eq_bind, Option.bind_some,
    Json.required_entries hid huuid,
    Json.required_entries htype (Json.readText_text (depth + 2) _),
    Json.required_entries hresource (Json.readText_text (depth + 2) _),
    Json.required_entries hadapter (Json.readText_text (depth + 2) _),
    Json.required_entries hgeneration (Json.readInt64_writeInt64 (depth + 2) _),
    Json.required_entries hconditions (s.conditions.read_write depth), hread,
    ExecutionMetadata.optional_entries hmetadata,
    Json.required_entries hcreated (Json.readInstant_writeInstant (depth + 2) _),
    Json.required_entries hlast (Json.readInstant_writeInstant (depth + 2) _)]

theorem readsBack (hdata : ∀ v ∈ s.data, v.IsKept 126 ∧ v ≠ .null) : ReadsBack read write s := by
  obtain ⟨data, hread, hsame⟩ := exists_read_write hdata
  refine ⟨{ s with data }, (Json.decode?_render_eq s).trans hread, blurred_write_of_data hsame, ?_⟩
  intro hwhole
  rw [Json.eq_of_map_blurred_eq hsame fun v hv =>
    Json.isWhole_of_mem hwhole (mem_members_of_data hv)]

/-- A status without fractions is read back as it was written, unless it nests too deep. -/
theorem decode?_render (htidy : ∀ v ∈ s.data, v.IsTidy ∧ v ≠ .null)
    (hwhole : s.write.isWhole = true) (hnesting : Json5.nesting s.write ≤ Json.depthLimit) :
    Json.decode? read s.write.render = some s :=
  (readsBack fun v hv => ⟨(htidy v hv).1.isKept_of_mem (mem_members_of_data hv) hnesting,
    (htidy v hv).2⟩).decode?_render hwhole

theorem isStable : IsStable read write := by
  intro raw s h
  refine readsBack ?_
  obtain ⟨tree, -, hread⟩ := Option.bind_eq_some_iff.mp h
  obtain ⟨fields, hfields, hread⟩ := Option.bind_eq_some_iff.mp hread
  obtain ⟨id, -, hread⟩ := Option.bind_eq_some_iff.mp hread
  obtain ⟨type, -, hread⟩ := Option.bind_eq_some_iff.mp hread
  obtain ⟨resource, -, hread⟩ := Option.bind_eq_some_iff.mp hread
  obtain ⟨adapter, -, hread⟩ := Option.bind_eq_some_iff.mp hread
  obtain ⟨generation, -, hread⟩ := Option.bind_eq_some_iff.mp hread
  obtain ⟨conditions, -, hread⟩ := Option.bind_eq_some_iff.mp hread
  obtain ⟨data, hdata, hread⟩ := Option.bind_eq_some_iff.mp hread
  obtain ⟨metadata, -, hread⟩ := Option.bind_eq_some_iff.mp hread
  obtain ⟨created, -, hread⟩ := Option.bind_eq_some_iff.mp hread
  obtain ⟨last, -, hread⟩ := Option.bind_eq_some_iff.mp hread
  cases hread
  have hdepth : fields.depth = 126 := Nat.succ_injective (Json.depth_of_readFields hfields)
  exact hdepth ▸ Json.Fields.isKept_of_optional hdata

end AdapterStatus
end StatusBoard

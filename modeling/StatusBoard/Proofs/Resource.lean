import StatusBoard.Proofs.Json.Again
import StatusBoard.Proofs.Store.Written
import StatusBoard.Resource
set_option autoImplicit false

/-!
# Resource: resources read again

A resource, and one that is asked for, are records with labels and an opaque spec.  Labels are read
again if they are in order, and the spec as opaque data is.
-/

namespace StatusBoard

open Json (Value IsStable ReadsBack)

/-- Labels in order are read back in a record around them. -/
theorem readDict_writeTexts {labels : Dict String} (h : labels.Sorted) (depth : Nat) :
    Json.readDict Json.readText (depth + 1) (Json.writeTexts labels).tree = some labels := by
  have hread : Json.readDict Json.readText (depth + 1) (Json.writeTexts labels).tree =
      some (Dict.ofPairs labels) := Json.readDict_object fun _ _ => rfl
  rw [hread, Dict.ofPairs_of_sorted h]

/-- Labels that are read, or left out, are in order. -/
theorem sorted_of_orDefault {fields : Json.Fields} {name : String} {labels : Dict String}
    (h : fields.orDefault name [] (Json.readDict Json.readText) = some labels) :
    labels.Sorted := by
  obtain rfl | ⟨tree, htree⟩ := Json.Fields.of_orDefault h
  · exact List.Pairwise.nil
  · exact Json.sorted_of_readDict htree

/-! ## Resources that are asked for -/

namespace NewResource

variable {r : NewResource}

/-- The fields in the order of their declaration. -/
def fieldNames : List String := ["name", "labels", "spec"]

/-- The members that a resource is asked for with. -/
def members (r : NewResource) : List (String × Value) :=
  [("name", .text r.name), ("labels", Json.writeTexts r.labels), ("spec", r.spec)]

theorem write_eq (r : NewResource) : r.write = .object r.members := rfl

theorem mem_members_of_spec (r : NewResource) : ("spec", r.spec) ∈ r.members := by
  simp [members]

/-- What is asked for is read back as it was written, but for fractions in its spec. -/
theorem exists_read_write {depth : Nat} (hlabels : r.labels.Sorted)
    (hspec : r.spec.IsKept (depth + 1)) :
    ∃ spec, read (depth + 2) r.write.tree = some { r with spec } ∧
      spec.blurred = r.spec.blurred := by
  have hfields := Json.readFields_object (show fieldNames.Nodup by decide)
      (List.Sublist.refl (r.members.map (·.1))) .wire (depth + 1)
  have hname : Json.memberOf r.members "name" = some (.text r.name) := rfl
  have hlabel : Json.memberOf r.members "labels" = some (Json.writeTexts r.labels) := rfl
  have hmember : Json.memberOf r.members "spec" = some r.spec := rfl
  obtain ⟨spec, hread, hsame⟩ := Json.exists_default_entries hmember hspec
  refine ⟨spec, ?_, hsame⟩
  rw [read, write_eq]
  change (Json.readFields .wire fieldNames _ (Value.object r.members).tree).bind _ = _
  simp only [hfields, Option.bind_eq_bind, Option.bind_some,
    Json.required_entries hname (Json.readText_text (depth + 1) _),
    Json.default_entries hlabel (readDict_writeTexts hlabels depth), hread]

theorem readsBack (hlabels : r.labels.Sorted) (hspec : r.spec.IsKept 126) :
    ReadsBack read write r := by
  obtain ⟨spec, hread, hsame⟩ := exists_read_write hlabels hspec
  refine ⟨{ r with spec }, (Json.decode?_render_eq r).trans hread, ?_, fun hwhole => ?_⟩
  · simp only [write_eq, members, Value.blurred, Json.blurredMembers, hsame]
  · rw [Value.eq_of_blurred_eq hsame (Json.isWhole_of_mem hwhole r.mem_members_of_spec)]

/-- What is asked for without fractions is read back as it was written, unless it nests too deep. -/
theorem decode?_render (hlabels : r.labels.Sorted) (htidy : r.spec.IsTidy)
    (hwhole : r.write.isWhole = true) (hnesting : Json5.nesting r.write ≤ Json.depthLimit) :
    Json.decode? read r.write.render = some r :=
  (readsBack hlabels (htidy.isKept_of_mem r.mem_members_of_spec hnesting)).decode?_render hwhole

theorem isStable : IsStable read write := by
  intro raw r h
  obtain ⟨tree, -, hread⟩ := Option.bind_eq_some_iff.mp h
  obtain ⟨fields, hfields, hread⟩ := Option.bind_eq_some_iff.mp hread
  obtain ⟨name, -, hread⟩ := Option.bind_eq_some_iff.mp hread
  obtain ⟨labels, hlabels, hread⟩ := Option.bind_eq_some_iff.mp hread
  obtain ⟨spec, hspec, hread⟩ := Option.bind_eq_some_iff.mp hread
  cases hread
  have hdepth : fields.depth = 126 := Nat.succ_injective (Json.depth_of_readFields hfields)
  exact readsBack (sorted_of_orDefault hlabels) (hdepth ▸ Json.Fields.isKept_of_orDefault hspec)

end NewResource

/-! ## Resources -/

namespace Resource

variable {x : Resource}

/-- The fields in the order of their declaration. -/
def fieldNames : List String :=
  ["id", "kind", "name", "labels", "spec", "generation", "statusConditions", "createdTime",
   "updatedTime"]

/-- The members that a resource is written with. -/
def members (x : Resource) : List (String × Value) :=
  [("id", .text x.id.toText), ("kind", .text x.kind), ("name", .text x.name),
   ("labels", Json.writeTexts x.labels), ("spec", x.spec),
   ("generation", Json.writeInt64 x.generation), ("statusConditions", x.statusConditions.write),
   ("createdTime", Json.writeInstant x.createdTime),
   ("updatedTime", Json.writeInstant x.updatedTime)]

theorem write_eq (x : Resource) : x.write = .object x.members := rfl

theorem mem_members_of_spec (x : Resource) : ("spec", x.spec) ∈ x.members := by
  simp [members]

/-- A resource is read back as it was written, but for fractions in its spec. -/
theorem exists_read_write {depth : Nat} (hlabels : x.labels.Sorted)
    (hspec : x.spec.IsKept (depth + 2)) :
    ∃ spec, read (depth + 3) x.write.tree = some { x with spec } ∧
      spec.blurred = x.spec.blurred := by
  have hfields := Json.readFields_object (show fieldNames.Nodup by decide)
      (List.Sublist.refl (x.members.map (·.1))) .wire (depth + 2)
  have hid : Json.memberOf x.members "id" = some (.text x.id.toText) := rfl
  have huuid : Json.readUuid (depth + 2) (Value.text x.id.toText).tree = some x.id :=
    Uuid.parse?_toText x.id
  have hkind : Json.memberOf x.members "kind" = some (.text x.kind) := rfl
  have hname : Json.memberOf x.members "name" = some (.text x.name) := rfl
  have hlabel : Json.memberOf x.members "labels" = some (Json.writeTexts x.labels) := rfl
  have hmember : Json.memberOf x.members "spec" = some x.spec := rfl
  have hgeneration : Json.memberOf x.members "generation" =
      some (Json.writeInt64 x.generation) := rfl
  have hconditions : Json.memberOf x.members "statusConditions" =
      some x.statusConditions.write := rfl
  have hcreated : Json.memberOf x.members "createdTime" =
      some (Json.writeInstant x.createdTime) := rfl
  have hupdated : Json.memberOf x.members "updatedTime" =
      some (Json.writeInstant x.updatedTime) := rfl
  obtain ⟨spec, hread, hsame⟩ := Json.exists_default_entries hmember hspec
  refine ⟨spec, ?_, hsame⟩
  rw [read, write_eq]
  change (Json.readFields .wire fieldNames _ (Value.object x.members).tree).bind _ = _
  simp only [hfields, Option.bind_eq_bind, Option.bind_some,
    Json.required_entries hid huuid,
    Json.required_entries hkind (Json.readText_text (depth + 2) _),
    Json.required_entries hname (Json.readText_text (depth + 2) _),
    Json.default_entries hlabel (readDict_writeTexts hlabels (depth + 1)), hread,
    Json.required_entries hgeneration (Json.readInt64_writeInt64 (depth + 2) _),
    Json.default_entries hconditions (x.statusConditions.read_write depth),
    Json.required_entries hcreated (Json.readInstant_writeInstant (depth + 2) _),
    Json.required_entries hupdated (Json.readInstant_writeInstant (depth + 2) _)]

theorem readsBack (hlabels : x.labels.Sorted) (hspec : x.spec.IsKept 126) :
    ReadsBack read write x := by
  obtain ⟨spec, hread, hsame⟩ := exists_read_write hlabels hspec
  refine ⟨{ x with spec }, (Json.decode?_render_eq x).trans hread, ?_, fun hwhole => ?_⟩
  · simp only [write_eq, members, Value.blurred, Json.blurredMembers, hsame]
  · rw [Value.eq_of_blurred_eq hsame (Json.isWhole_of_mem hwhole x.mem_members_of_spec)]

/-- A resource without fractions is read back as it was written, unless it nests too deep. -/
theorem decode?_render (hlabels : x.labels.Sorted) (htidy : x.spec.IsTidy)
    (hwhole : x.write.isWhole = true) (hnesting : Json5.nesting x.write ≤ Json.depthLimit) :
    Json.decode? read x.write.render = some x :=
  (readsBack hlabels (htidy.isKept_of_mem x.mem_members_of_spec hnesting)).decode?_render hwhole

theorem isStable : IsStable read write := by
  intro raw x h
  obtain ⟨tree, -, hread⟩ := Option.bind_eq_some_iff.mp h
  obtain ⟨fields, hfields, hread⟩ := Option.bind_eq_some_iff.mp hread
  obtain ⟨id, -, hread⟩ := Option.bind_eq_some_iff.mp hread
  obtain ⟨kind, -, hread⟩ := Option.bind_eq_some_iff.mp hread
  obtain ⟨name, -, hread⟩ := Option.bind_eq_some_iff.mp hread
  obtain ⟨labels, hlabels, hread⟩ := Option.bind_eq_some_iff.mp hread
  obtain ⟨spec, hspec, hread⟩ := Option.bind_eq_some_iff.mp hread
  obtain ⟨generation, -, hread⟩ := Option.bind_eq_some_iff.mp hread
  obtain ⟨conditions, -, hread⟩ := Option.bind_eq_some_iff.mp hread
  obtain ⟨created, -, hread⟩ := Option.bind_eq_some_iff.mp hread
  obtain ⟨updated, -, hread⟩ := Option.bind_eq_some_iff.mp hread
  cases hread
  have hdepth : fields.depth = 126 := Nat.succ_injective (Json.depth_of_readFields hfields)
  exact readsBack (sorted_of_orDefault hlabels) (hdepth ▸ Json.Fields.isKept_of_orDefault hspec)

end Resource
end StatusBoard

import StatusBoard.Condition.Document
import StatusBoard.Proofs.Json.Records
set_option autoImplicit false

/-!
# Condition: documents read back

The text that is stored of a document holds that document again, unless it repeats a type; then the
text is refused for the first type that is repeated.
-/

namespace StatusBoard

namespace Condition

/-- The members that a condition is written with. -/
def members (c : Condition) : List (String × Json.Value) :=
  [("type", .text c.type), ("status", .text c.status.word)] ++
  Json.optionalMember "reason" .text c.reason ++ Json.optionalMember "message" .text c.message ++
  [("observedGeneration", Json.writeInt64 c.observedGeneration),
   ("lastTransitionTime", Json.writeInstant c.lastTransitionTime)] ++
  Json.optionalMember "createdTime" Json.writeInstant c.createdTime ++
  Json.optionalMember "lastUpdatedTime" Json.writeInstant c.lastUpdatedTime

theorem write_eq (c : Condition) : c.write = .object c.members := rfl

theorem isWhole_write (c : Condition) : c.write.isWhole = true := by
  have htext : ∀ s : String, (Json.Value.text s).isWhole = true := fun _ => rfl
  simp only [write_eq, Json.Value.isWhole, members, Json.membersWhole_append, Json.membersWhole,
    Json.membersWhole_optionalMember _ htext,
    Json.membersWhole_optionalMember _ Json.isWhole_writeInstant, Json.isWhole_writeInt64,
    Json.isWhole_writeInstant, Bool.and_self]

theorem keys_members (c : Condition) : (c.members.map (·.1)).Sublist fieldNames := by
  have hparts : fieldNames = ["type", "status"] ++ ["reason"] ++ ["message"] ++
      ["observedGeneration", "lastTransitionTime"] ++ ["createdTime"] ++ ["lastUpdatedTime"] := rfl
  rw [hparts]
  simp only [members, List.map_append]
  refine List.Sublist.append (List.Sublist.append (List.Sublist.append (List.Sublist.append
    (List.Sublist.append ?_ ?_) ?_) ?_) ?_) ?_
  · exact List.Sublist.refl _
  · exact Json.keys_optionalMember ..
  · exact Json.keys_optionalMember ..
  · exact List.Sublist.refl _
  · exact Json.keys_optionalMember ..
  · exact Json.keys_optionalMember ..

theorem memberOf_type (c : Condition) :
    Json.memberOf c.members "type" = some (.text c.type) := rfl

theorem memberOf_status (c : Condition) :
    Json.memberOf c.members "status" = some (.text c.status.word) := by
  simp [members]

/-- A condition is read back as it was written. -/
@[simp] theorem read_write (c : Condition) (depth : Nat) :
    read (depth + 1) c.write.tree = some c := by
  have hfields := Json.readFields_object (show fieldNames.Nodup by decide)
      c.keys_members .wire depth
  have hgeneration : Json.memberOf c.members "observedGeneration" =
      some (Json.writeInt64 c.observedGeneration) := by simp [members]
  have hchanged : Json.memberOf c.members "lastTransitionTime" =
      some (Json.writeInstant c.lastTransitionTime) := by simp [members]
  have hreason : Json.memberOf c.members "reason" = c.reason.map .text := by simp [members]
  have hmessage : Json.memberOf c.members "message" = c.message.map .text := by simp [members]
  have hcreated : Json.memberOf c.members "createdTime" = c.createdTime.map Json.writeInstant := by
    simp [members]
  have hupdated : Json.memberOf c.members "lastUpdatedTime" =
      c.lastUpdatedTime.map Json.writeInstant := by simp [members]
  have hword : ConditionStatus.read depth (Json.Value.text c.status.word).tree = some c.status := by
    simp [Json.Value.tree, ConditionStatus.read]
  rw [read, write_eq, hfields]
  simp only [Option.bind_eq_bind, Option.bind_some,
    Json.required_entries c.memberOf_type (Json.readText_text depth c.type),
    Json.required_entries c.memberOf_status hword,
    Json.default_entries hgeneration (Json.readInt64_writeInt64 depth c.observedGeneration),
    Json.required_entries hchanged (Json.readInstant_writeInstant depth c.lastTransitionTime),
    Json.optional_text depth hreason, Json.optional_text depth hmessage,
    Json.optional_instant depth hcreated, Json.optional_instant depth hupdated]

end Condition

namespace Document

theorem isWhole_write (d : Document) : d.write.isWhole = true := by
  rw [write, Json.Value.isWhole, Json.allWhole_iff]
  intro v hv
  obtain ⟨c, -, rfl⟩ := List.mem_map.mp hv
  exact c.isWhole_write

/-- A document is read back as it was written, repeats and all. -/
theorem read_write (d : Document) (depth : Nat) : read (depth + 2) d.write.tree = some d := by
  have hlist : Json.readList Condition.read (depth + 2) d.write.tree = some d.conditions :=
    Json.readList_array fun c _ => c.read_write depth
  rw [read, hlist, Option.map_some]

theorem decode?_render (d : Document) : Json.decode? read d.render = some d := by
  rw [Json.decode?, render, Json.parse?_render, Option.bind_some]
  exact d.read_write 125

/-- A stored text is taken back as the document that it was rendered from, unless a type is
repeated. -/
theorem parse_render (d : Document) :
    parse d.render = match repeatedType? d.conditions with
      | some type => .error (.repeatedType type)
      | none => .ok d := by
  unfold parse
  cases hrepeat : repeatedType? d.conditions with
  | none => simp only [decode?_render, hrepeat]
  | some type => simp only [decode?_render, hrepeat]

/-- The types of the document differ. -/
def HasDistinctTypes (d : Document) : Prop :=
  d.types.Nodup

theorem hasDistinctTypes_iff {d : Document} :
    d.HasDistinctTypes ↔ repeatedType? d.conditions = none :=
  (firstRepeat?_nil_eq_none_iff d.types).symm

theorem parse_render_of_distinct {d : Document} (h : d.HasDistinctTypes) :
    parse d.render = .ok d := by
  rw [parse_render, hasDistinctTypes_iff.mp h]

theorem distinct_of_parse {raw : String} {d : Document} (h : parse raw = .ok d) :
    d.HasDistinctTypes := by
  unfold parse at h
  split at h
  · cases h
  · split at h
    · cases h
    · rename_i hnone
      cases h
      exact hasDistinctTypes_iff.mpr hnone

theorem parse_empty : parse empty.render = .ok empty :=
  parse_render_of_distinct List.nodup_nil

end Document
end StatusBoard

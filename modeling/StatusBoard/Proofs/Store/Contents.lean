import StatusBoard.Proofs.Condition.RoundTrip
import StatusBoard.Proofs.Json5.Members
import StatusBoard.Store.Contents
import StatusBoard.Store.Decoding
set_option autoImplicit false

/-!
# Store: what a query finds in written columns

The labels and the conditions of a resource are JSON inside of a cell.  In a row that the library
wrote, a query finds there just what the resource has.
-/

namespace StatusBoard

/-- The cells of a row, its spec and its time of deletion apart, are what is
written of a resource. -/
structure ResourceRow.Records (r : ResourceRow) (x : Resource) : Prop where
  id : r.id = .text x.id.toText
  kind : r.kind = .text x.kind
  name : r.name = .text x.name
  labels : r.labels = .text (Json.writeTexts x.labels).render
  generation : r.generation = .int x.generation
  statusConditions : r.statusConditions = .text x.statusConditions.render
  createdTime : r.createdTime = .text x.createdTime.toStorageText
  updatedTime : r.updatedTime = .text x.updatedTime.toStorageText
  /-- The keys of labels are plain. -/
  keys : ∀ label ∈ x.labels, '\x00' ∉ label.1.toList

/-! ## Nesting -/

namespace Json5

open Json (Value)

theorem nestingOfMembers_append (members more : List (String × Value)) :
    nestingOfMembers (members ++ more) =
      max (nestingOfMembers members) (nestingOfMembers more) := by
  induction members with
  | nil => simp [nestingOfMembers]
  | cons member members ih =>
      rw [List.cons_append, nestingOfMembers, nestingOfMembers, ih, Nat.max_assoc]

theorem nestingOfMembers_optionalMember {α : Type} (key : String) {write : α → Value}
    (h : ∀ x, nesting (write x) = 0) (x : Option α) :
    nestingOfMembers (Json.optionalMember key write x) = 0 := by
  cases x <;> simp [Json.optionalMember, nestingOfMembers, h]

theorem nestingOfAll_le {items : List Value} {n : Nat} (h : ∀ v ∈ items, nesting v ≤ n) :
    nestingOfAll items ≤ n := by
  induction items with
  | nil => simp [nestingOfAll]
  | cons item items ih =>
      rw [nestingOfAll, Nat.max_le]
      exact ⟨h item List.mem_cons_self, ih fun v hv => h v (List.mem_cons_of_mem _ hv)⟩

theorem nesting_writeTexts (d : Dict String) : nesting (Json.writeTexts d) = 1 := by
  rw [Json.writeTexts, nesting]
  induction d with
  | nil => rfl
  | cons entry d ih => simpa [nestingOfMembers, nesting] using ih

theorem nesting_condition (c : Condition) : nesting c.write = 1 := by
  have htext : ∀ s : String, nesting (.text s) = 0 := fun _ => rfl
  have htime : ∀ t : Instant, nesting (Json.writeInstant t) = 0 := fun _ => rfl
  rw [Condition.write_eq, nesting, Condition.members]
  simp only [nestingOfMembers_append, nestingOfMembers_optionalMember _ htext,
    nestingOfMembers_optionalMember _ htime, nestingOfMembers, htext, htime]
  rfl

theorem nesting_document (d : Document) : nesting d.write ≤ 2 := by
  rw [Document.write, nesting]
  refine Nat.succ_le_succ (nestingOfAll_le ?_)
  intro v hv
  obtain ⟨c, -, rfl⟩ := List.mem_map.mp hv
  exact Nat.le_of_eq (nesting_condition c)

end Json5

/-! ## Labels -/

theorem isWhole_writeTexts (d : Dict String) : (Json.writeTexts d).isWhole = true := by
  rw [Json.writeTexts, Json.Value.isWhole, Json.membersWhole_iff]
  intro m hm
  obtain ⟨entry, -, rfl⟩ := List.mem_map.mp hm
  rfl

theorem memberOf_writeTexts (d : Dict String) (key : String) :
    Json.memberOf (d.map fun (key, value) => (key, Json.Value.text value)) key =
      (d.get? key).map .text := by
  rw [Json.memberOf, Dict.get?, List.find?_map, Option.map_map, Option.map_map]
  rfl

/-- What a query sees under the key of a label. -/
def Resource.labelSight (x : Resource) (key : String) : Json5.Sight :=
  match x.labels.get? key with
  | none => .nothing
  | some value => .text (Json5.codesOf value)

/-- A query sees the label of a resource. -/
theorem ResourceRow.Records.member {r : ResourceRow} {x : Resource} (h : r.Records x)
    (key : String) : r.labels.member key = .ok (x.labelSight key) := by
  have hnode : r.labels.toNode = .ok (some (.ofValue (Json.writeTexts x.labels))) := by
    have hnesting := Json5.nesting_writeTexts x.labels
    have hparse := Json5.parse?_toChars (isWhole_writeTexts x.labels) (by rw [hnesting]; decide)
    rw [h.labels, Cell.toNode, Json.Value.render, String.toList_ofList, hparse]
    rfl
  have hkeys : ∀ m ∈ x.labels.map (fun (key, value) => (key, Json.Value.text value)),
      '\x00' ∉ m.1.toList := by
    intro m hm
    obtain ⟨entry, hentry, rfl⟩ := List.mem_map.mp hm
    exact h.keys entry hentry
  have hmember := Json5.member?_object key hkeys
  rw [memberOf_writeTexts] at hmember
  rw [Cell.member, hnode, Resource.labelSight]
  change Cell.seen (Json5.Node.member? key (.ofValue (Json.writeTexts x.labels))) = _
  rw [Json.writeTexts, hmember]
  cases x.labels.get? key with
  | none => rfl
  | some value =>
      simp only [Option.map_some]
      change Cell.seen (Json5.Node.ofText value).sight? = _
      rw [Json5.sight?_ofText]
      rfl

/-! ## Conditions -/

theorem Json5.relate_eq_text (value word : String) :
    (Json5.Sight.text (Json5.codesOf value)).relate .eq word = some (decide (value = word)) := by
  change some (compare (codesOf value) (codesOf word) == .eq) = _
  congr 1
  rw [Bool.eq_iff_iff, beq_iff_eq, Std.compare_eq_iff_eq, decide_eq_true_eq]
  exact ⟨codesOf_inj, fun heq => by rw [heq]⟩

theorem Condition.zero_not_mem_key (c : Condition) : ∀ m ∈ c.members, '\x00' ∉ m.1.toList := by
  have hnames : ∀ name ∈ Condition.fieldNames, '\x00' ∉ name.toList := by decide
  intro m hm
  exact hnames m.1 (c.keys_members.subset (List.mem_map_of_mem hm))

/-- What a query sees of a condition. -/
theorem Condition.elementMember? (c : Condition) :
    Json5.Node.elementMember? "type" (.ofValue c.write) = some (.text (Json5.codesOf c.type)) ∧
      Json5.Node.elementMember? "status" (.ofValue c.write) =
      some (.text (Json5.codesOf c.status.word)) := by
  have hnesting : Json5.nesting (.object c.members) ≤ Json5.depthLimit := by
    rw [← c.write_eq, Json5.nesting_condition]
    decide
  have hwhole : (Json.Value.object c.members).isWhole = true := c.isWhole_write
  rw [c.write_eq]
  constructor
  · rw [Json5.elementMember?_object hwhole hnesting,
      Json5.member?_object _ c.zero_not_mem_key, c.memberOf_type]
    exact Json5.sight?_ofText c.type
  · rw [Json5.elementMember?_object hwhole hnesting,
      Json5.member?_object _ c.zero_not_mem_key, c.memberOf_status]
    exact Json5.sight?_ofText c.status.word

/-- One of the conditions has the type and the status word. -/
def Document.has (d : Document) (type status : String) : Bool :=
  d.conditions.any fun c => c.type = type && c.status.word = status

theorem someElementIs_conditions (type status : String) (conditions : List Condition) :
    someElementIs type status (conditions.map fun c => Json5.Node.ofValue c.write) =
      .ok (conditions.any fun c => c.type = type && c.status.word = status) := by
  induction conditions with
  | nil => rfl
  | cons c conditions ih =>
      obtain ⟨htype, hstatus⟩ := c.elementMember?
      rw [List.map_cons, someElementIs, htype, ih]
      by_cases hsame : c.type = type
      · by_cases hword : c.status.word = status <;>
          simp [Cell.seen, Json5.relate_eq_text, bind, Except.bind, hstatus, hsame, hword,
            pure, Except.pure]
      · simp [Cell.seen, Json5.relate_eq_text, bind, Except.bind, hsame]

/-- A query finds the conditions of a resource. -/
theorem ResourceRow.Records.hasCondition {r : ResourceRow} {x : Resource} (h : r.Records x)
    (type status : String) :
    r.hasCondition type status = .ok (x.statusConditions.has type status) := by
  have hnode : r.statusConditions.toNode = .ok (some (.ofValue x.statusConditions.write)) := by
    have hnesting := Json5.nesting_document x.statusConditions
    have hparse := Json5.parse?_toChars x.statusConditions.isWhole_write
      (Nat.le_trans hnesting (by decide))
    rw [h.statusConditions, Cell.toNode, Document.render, Json.Value.render,
      String.toList_ofList, hparse]
    rfl
  have helements : (Json5.Node.ofValue x.statusConditions.write).elements =
      x.statusConditions.conditions.map fun c => .ofValue c.write := by
    rw [Document.write, Json5.Node.ofValue, Json5.Node.elements, Json5.nodesOf_eq_map, List.map_map]
    rfl
  rw [ResourceRow.hasCondition, hnode]
  change someElementIs type status (Json5.Node.ofValue x.statusConditions.write).elements = _
  rw [helements, someElementIs_conditions]
  rfl

end StatusBoard

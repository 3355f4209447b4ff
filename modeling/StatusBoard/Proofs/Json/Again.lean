import StatusBoard.Proofs.Json.Kept
import StatusBoard.Proofs.Json5.Strict
set_option autoImplicit false

/-!
# Json: reading again what was written

Records carry opaque data next to fields of their own.  What was read of a text can be written and
read again, and then nothing has changed but, maybe, the digits of fractions inside of the data.
`ReadsBack` says so of one value, `IsStable` of all that a reader accepts.
-/

namespace StatusBoard.Json

/-! ## Nesting -/

theorem nesting_le_of_mem_items {items : List Value} {v : Value} (h : v ∈ items) :
    Json5.nesting v ≤ Json5.nestingOfAll items := by
  induction items with
  | nil => cases h
  | cons item items ih =>
      rw [Json5.nestingOfAll]
      rcases List.mem_cons.mp h with rfl | h
      · exact Nat.le_max_left ..
      · exact Nat.le_trans (ih h) (Nat.le_max_right ..)

theorem nesting_le_of_mem_members {members : List (String × Value)} {m : String × Value}
    (h : m ∈ members) : Json5.nesting m.2 ≤ Json5.nestingOfMembers members := by
  induction members with
  | nil => cases h
  | cons member members ih =>
      rw [Json5.nestingOfMembers]
      rcases List.mem_cons.mp h with rfl | h
      · exact Nat.le_max_left ..
      · exact Nat.le_trans (ih h) (Nat.le_max_right ..)

/-- A tidy value fits where there is room for its nesting. -/
theorem Value.IsTidy.fits {v : Value} (h : v.IsTidy) {depth : Nat}
    (hnesting : Json5.nesting v ≤ depth) : v.Fits depth := by
  induction h generalizing depth with
  | null => exact .null depth
  | bool value => exact .bool depth value
  | number hrange => exact .number depth hrange
  | text s => exact .text depth s
  | array _ ih =>
      rw [Json5.nesting] at hnesting
      obtain ⟨depth, rfl⟩ := Nat.exists_eq_add_of_lt hnesting
      exact .array fun v hv => ih v hv (by have := nesting_le_of_mem_items hv; omega)
  | object _ _ ih =>
      rw [Json5.nesting] at hnesting
      obtain ⟨depth, rfl⟩ := Nat.exists_eq_add_of_lt hnesting
      exact .object fun m hm => ih m hm (by have := nesting_le_of_mem_members hm; omega)

mutual

/-- What is read again from a tree nests no deeper than is read. -/
theorem nesting_le_of_ofTree? : ∀ (depth : Nat) (v : Value) {w : Value},
    Value.ofTree? depth v.tree = some w → Json5.nesting v ≤ depth
  | depth, .null, w, h => Nat.zero_le depth
  | depth, .bool value, w, h => Nat.zero_le depth
  | depth, .number n, w, h => Nat.zero_le depth
  | depth, .text s, w, h => Nat.zero_le depth
  | 0, .array items, w, h => by cases h
  | depth + 1, .array items, w, h => by
      obtain ⟨values, hvalues, -⟩ := Option.map_eq_some_iff.mp h
      exact Nat.succ_le_succ (nestingOfAll_le_of_itemsOfTrees? depth items hvalues)
  | 0, .object members, w, h => by cases h
  | depth + 1, .object members, w, h => by
      obtain ⟨pairs, hpairs, -⟩ := Option.map_eq_some_iff.mp h
      exact Nat.succ_le_succ (nestingOfMembers_le_of_membersOfTrees? depth members hpairs)

theorem nestingOfAll_le_of_itemsOfTrees? : ∀ (depth : Nat) (items : List Value)
    {values : List Value}, itemsOfTrees? depth (treesOf items) = some values →
    Json5.nestingOfAll items ≤ depth
  | depth, [], values, h => Nat.zero_le depth
  | depth, item :: items, values, h => by
      obtain ⟨v, hv, h⟩ := Option.bind_eq_some_iff.mp h
      obtain ⟨rest, hrest, -⟩ := Option.bind_eq_some_iff.mp h
      exact Nat.max_le.mpr ⟨nesting_le_of_ofTree? depth item hv,
        nestingOfAll_le_of_itemsOfTrees? depth items hrest⟩

theorem nestingOfMembers_le_of_membersOfTrees? : ∀ (depth : Nat) (members : List (String × Value))
    {pairs : List (String × Value)}, membersOfTrees? depth (memberTrees members) = some pairs →
    Json5.nestingOfMembers members ≤ depth
  | depth, [], pairs, h => Nat.zero_le depth
  | depth, (key, value) :: members, pairs, h => by
      obtain ⟨v, hv, h⟩ := Option.bind_eq_some_iff.mp h
      obtain ⟨rest, hrest, -⟩ := Option.bind_eq_some_iff.mp h
      exact Nat.max_le.mpr ⟨nesting_le_of_ofTree? depth value hv,
        nestingOfMembers_le_of_membersOfTrees? depth members hrest⟩

end

/-- What can be read again from its text nests no deeper than a document may. -/
theorem Value.IsReadable.nesting_le {v : Value} (h : v.IsReadable) :
    Json5.nesting v ≤ depthLimit := by
  obtain ⟨w, hw⟩ := h
  rw [decode?, parse?_render, Option.bind_some] at hw
  exact nesting_le_of_ofTree? depthLimit v hw

/-- A tidy value can be read again from its text exactly if it nests no deeper than a document may. -/
theorem Value.IsTidy.isReadable_iff {v : Value} (h : v.IsTidy) :
    v.IsReadable ↔ Json5.nesting v ≤ depthLimit :=
  ⟨fun hreadable => hreadable.nesting_le, fun hnesting => (h.fits hnesting).isReadable⟩

/-! ## Opaque data -/

/-- The value is as those are that are read where so many levels of nesting are left. -/
structure Value.IsKept (depth : Nat) (v : Value) : Prop where
  fits : v.Fits depth
  tidy : v.IsTidy

theorem Value.isKept_null (depth : Nat) : IsKept depth .null :=
  ⟨.null depth, .null⟩

theorem Value.IsKept.of_readValue {depth : Nat} {tree : Tree} {v : Value}
    (h : readValue depth tree = some v) : v.IsKept depth :=
  ⟨fits_of_ofTree? depth tree h, isTidy_of_ofTree? depth tree h⟩

/-- A member of a record that nests no deeper than is read leaves room for the record. -/
theorem Value.IsTidy.isKept_of_mem {v : Value} (h : v.IsTidy) {members : List (String × Value)}
    {name : String} (hmem : (name, v) ∈ members) {depth : Nat}
    (hnesting : Json5.nesting (.object members) ≤ depth + 1) : v.IsKept depth := by
  have hle := nesting_le_of_mem_members hmem
  rw [Json5.nesting] at hnesting
  exact ⟨h.fits (Nat.le_trans hle (Nat.le_of_succ_le_succ hnesting)), h⟩

/-- What is read of null only is null. -/
theorem eq_null_of_readValue {depth : Nat} {tree : Tree} (h : readValue depth tree = some .null) :
    tree = .null := by
  unfold readValue Value.ofTree? at h
  repeat' split at h
  all_goals simp_all

theorem tree_ne_null {v : Value} (h : v ≠ .null) : v.tree ≠ .null := by
  unfold Value.tree
  split <;> simp_all

/-- A value that is kept is read again, fractions apart. -/
theorem Value.IsKept.exists_same {depth : Nat} {v : Value} (h : v.IsKept depth) :
    ∃ w, readValue depth v.tree = some w ∧ w.blurred = v.blurred := by
  obtain ⟨w, hw⟩ := h.fits.exists_ofTree?
  exact ⟨w, hw, h.tidy.blurred_of_ofTree? hw⟩

/-! ## Fields with opaque data -/

section Fields

variable {fields : Fields} {depth : Nat} {members : List (String × Value)} {name : String}

theorem Fields.isKept_of_optional {x : Option Value}
    (h : fields.optional name readValue = some x) :
    ∀ v ∈ x, v.IsKept fields.depth ∧ v ≠ .null := by
  intro v hv
  obtain ⟨tree, hpresent, hread⟩ := of_optional h v hv
  refine ⟨.of_readValue hread, ?_⟩
  rintro rfl
  exact hpresent (eq_null_of_readValue hread)

theorem Fields.isKept_of_orDefault {v : Value}
    (h : fields.orDefault name .null readValue = some v) : v.IsKept fields.depth := by
  obtain rfl | ⟨tree, hread⟩ := of_orDefault h
  · exact Value.isKept_null _
  · exact .of_readValue hread

/-- A field with opaque data, or without any, is read again, fractions apart. -/
theorem exists_optional_entries {x : Option Value} (hmember : memberOf members name = x)
    (hkept : ∀ v ∈ x, v.IsKept depth ∧ v ≠ .null) :
    ∃ y, Fields.optional { depth, entries := members.map fun m => (m.1, m.2.tree) } name readValue =
        some y ∧ y.map Value.blurred = x.map Value.blurred := by
  cases x with
  | none =>
      have hnone : memberOf members name = (none : Option Value).map id := hmember
      exact ⟨none, optional_entries hnone (by simp) (by simp), rfl⟩
  | some v =>
      obtain ⟨hv, hpresent⟩ := hkept v rfl
      obtain ⟨w, hread, hsame⟩ := hv.exists_same
      have hsome : memberOf members name = (some w).map fun _ => v := hmember
      refine ⟨some w, optional_entries hsome ?_ fun _ _ => tree_ne_null hpresent, ?_⟩
      · rintro _ ⟨⟩
        exact hread
      · rw [Option.map_some, Option.map_some, hsame]

theorem exists_default_entries {v : Value} (hmember : memberOf members name = some v)
    (hkept : v.IsKept depth) :
    ∃ w, Fields.orDefault { depth, entries := members.map fun m => (m.1, m.2.tree) } name .null
        readValue = some w ∧ w.blurred = v.blurred := by
  obtain ⟨w, hread, hsame⟩ := hkept.exists_same
  exact ⟨w, default_entries hmember hread, hsame⟩

end Fields

/-! ## Fractions -/

theorem blurredMembers_append (members more : List (String × Value)) :
    blurredMembers (members ++ more) = blurredMembers members ++ blurredMembers more := by
  induction members with
  | nil => rfl
  | cons member members ih =>
      rw [List.cons_append, blurredMembers, blurredMembers, ih, List.cons_append]

theorem blurredMembers_optionalMember (key : String) (x : Option Value) :
    blurredMembers (optionalMember key (fun v => v) x) =
      optionalMember key (fun v => v) (x.map Value.blurred) := by
  cases x <;> rfl

/-- The parts of a record without fractions have none. -/
theorem isWhole_of_mem {members : List (String × Value)} {m : String × Value}
    (h : (Value.object members).isWhole = true) (hm : m ∈ members) : m.2.isWhole = true :=
  membersWhole_iff.mp h m hm

theorem mem_optionalMember {α : Type} {key : String} {write : α → Value} {x : Option α} {y : α}
    (h : y ∈ x) : (key, write y) ∈ optionalMember key write x := by
  cases h
  exact List.mem_singleton.mpr rfl

/-! ## Readers and writers -/

section Codec

variable {α : Type} (reader : Reader α) (write : α → Value)

/-- From its own text the value is read again, and is the same, but for fractions if it has any. -/
def ReadsBack (x : α) : Prop :=
  ∃ y, decode? reader (write x).render = some y ∧ (write y).blurred = (write x).blurred ∧
    ((write x).isWhole = true → y = x)

/-- Whatever is read of a text is read again from its own text. -/
def IsStable : Prop :=
  ∀ raw x, decode? reader raw = some x → ReadsBack reader write x

variable {reader write} {x : α}

theorem decode?_render_eq (x : α) :
    decode? reader (write x).render = reader depthLimit (write x).tree := by
  rw [decode?, parse?_render, Option.bind_some]

theorem ReadsBack.of_eq (h : decode? reader (write x).render = some x) : ReadsBack reader write x :=
  ⟨x, h, rfl, fun _ => rfl⟩

theorem ReadsBack.decode?_render (h : ReadsBack reader write x)
    (hwhole : (write x).isWhole = true) : decode? reader (write x).render = some x := by
  obtain ⟨y, hread, -, hsame⟩ := h
  rw [hread, hsame hwhole]

end Codec

end StatusBoard.Json

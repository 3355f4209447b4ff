import StatusBoard.Proofs.Condition.Checks
import StatusBoard.Proofs.Dict
import StatusBoard.Proofs.Store.Contents
import StatusBoard.Proofs.Store.Resources
set_option autoImplicit false

/-!
# Store: rows of resources as they are written

The operations on resources write identities, labels, conditions and times in one form only.  A row
that holds them in that form, and is read as a resource, records that resource: nothing is in its
cells but what the resource says.
-/

namespace StatusBoard

/-! ## Labels -/

/-- The labels of a resource are read back, and put in order. -/
theorem decode?_writeTexts (d : Dict String) :
    Json.decode? (Json.readDict Json.readText) (Json.writeTexts d).render =
      some (Dict.ofPairs d) := by
  rw [Json.decode?, Json.parse?_render, Option.bind_some]
  exact Json.readDict_object fun _ _ => rfl

/-! ## Label keys -/

theorem forall_of_isFramed {ends between : Char → Bool} {limit : Nat} {s : List Char}
    (h : isFramed ends between limit s = true) : ∀ c ∈ s, ends c = true ∨ between c = true := by
  match s, h with
  | [d], h =>
      intro c hc
      rw [List.mem_singleton.mp hc]
      exact .inl h
  | first :: d :: rest, h =>
      simp only [isFramed, Bool.and_eq_true, decide_eq_true_eq, List.all_eq_true] at h
      obtain ⟨⟨⟨hfirst, hlast⟩, hbetween⟩, -⟩ := h
      intro c hc
      rcases List.mem_cons.mp hc with rfl | hc
      · exact .inl hfirst
      · rw [← List.dropLast_concat_getLast (List.cons_ne_nil d rest)] at hc
        rcases List.mem_append.mp hc with hc | hc
        · exact .inr (hbetween c hc)
        · rw [List.mem_singleton.mp hc]
          exact .inl hlast

theorem zero_not_mem_of_isLabelKey {key : String} (h : isLabelKey key = true) :
    '\x00' ∉ key.toList := by
  intro hmem
  obtain hends | hbetween := forall_of_isFramed h '\x00' hmem
  · exact absurd hends (by decide)
  · exact absurd hbetween (by decide)

/-- A resource that passes its checks has plain keys of labels. -/
theorem NewResource.isLabelKey_of_validate {new : NewResource} (h : new.validate = .ok ()) :
    ∀ label ∈ new.labels, isLabelKey label.1 = true := by
  intro label hlabel
  exact (validate_eq_ok_iff.mp h).2 label.1 (List.mem_map_of_mem hlabel)

/-! ## Rows -/

/-- Identity, labels, conditions and times are in the form in which they are written. -/
structure ResourceRow.IsWritten (r : ResourceRow) : Prop where
  id : ∃ id : Uuid, r.id = .text id.toText
  labels : ∃ labels : Dict String, labels.Sorted ∧ (∀ label ∈ labels, isLabelKey label.1 = true) ∧
    r.labels = .text (Json.writeTexts labels).render
  statusConditions : ∃ d : Document, d.HasDistinctTypes ∧ r.statusConditions = .text d.render
  createdTime : ∃ t : Instant, r.createdTime = .text t.toStorageText
  updatedTime : ∃ t : Instant, r.updatedTime = .text t.toStorageText

namespace ResourceRow

/-- A row that is written, and is read as a resource, records it. -/
theorem IsWritten.records {r : ResourceRow} {x : Resource} (h : r.IsWritten)
    (hread : Resource.ofRow r = .ok x) : r.Records x := by
  have hsays := Resource.ofRow_eq_ok_iff.mp hread
  obtain ⟨id, hid⟩ := h.id
  obtain ⟨labels, hsorted, hkeys, hlabels⟩ := h.labels
  obtain ⟨d, hdistinct, hconditions⟩ := h.statusConditions
  obtain ⟨created, hcreated⟩ := h.createdTime
  obtain ⟨updated, hupdated⟩ := h.updatedTime
  have hidRead := Uuid.eq_of_read hid hsays.id
  have hlabelsRead := Cell.read_eq hlabels hsays.labels
  have hconditionsRead := Cell.read_eq hconditions hsays.statusConditions
  have hcreatedRead := Cell.read_eq hcreated hsays.createdTime
  have hupdatedRead := Cell.read_eq hupdated hsays.updatedTime
  rw [decode?_writeTexts, Dict.ofPairs_of_sorted hsorted, Option.some.injEq] at hlabelsRead
  rw [Document.parse_render_of_distinct hdistinct, Except.ok.injEq] at hconditionsRead
  exact {
    id := by rw [hid, hidRead]
    kind := hsays.kind
    name := hsays.name
    labels := by rw [hlabels, hlabelsRead]
    generation := hsays.generation
    statusConditions := by rw [hconditions, hconditionsRead]
    createdTime := by rw [hcreated, Instant.toStorageText_of_parseStrict? hcreatedRead]
    updatedTime := by rw [hupdated, Instant.toStorageText_of_parseStrict? hupdatedRead]
    keys := by
      intro label hlabel
      rw [← hlabelsRead] at hlabel
      exact zero_not_mem_of_isLabelKey (hkeys label hlabel) }

/-- The labels of a resource that is read from a written row are in order, under plain keys. -/
theorem IsWritten.labels_of_read {r : ResourceRow} {x : Resource} (h : r.IsWritten)
    (hread : Resource.ofRow r = .ok x) :
    x.labels.Sorted ∧ ∀ label ∈ x.labels, isLabelKey label.1 = true := by
  obtain ⟨labels, hsorted, hkeys, hlabels⟩ := h.labels
  have hsame := Cell.read_eq hlabels (Resource.ofRow_eq_ok_iff.mp hread).labels
  rw [decode?_writeTexts, Dict.ofPairs_of_sorted hsorted, Option.some.injEq] at hsame
  rw [← hsame]
  exact ⟨hsorted, hkeys⟩

/-- The row of a resource that is created is written. -/
theorem isWritten_toRow {new : NewResource} (hsorted : new.labels.Sorted)
    (hvalid : new.validate = .ok ()) (id : Uuid) (kind : String) (now : Instant) :
    (new.toRow id kind now).IsWritten where
  id := ⟨id, rfl⟩
  labels := ⟨new.labels, hsorted, new.isLabelKey_of_validate hvalid, rfl⟩
  statusConditions := ⟨.empty, List.nodup_nil, rfl⟩
  createdTime := ⟨now, rfl⟩
  updatedTime := ⟨now, rfl⟩

/-- Conditions that are set are written. -/
theorem IsWritten.withConditions {r : ResourceRow} (h : r.IsWritten) {d : Document}
    (hdistinct : d.HasDistinctTypes) (now : Instant) :
    (Store.withConditions d.render now r).IsWritten where
  id := h.id
  labels := h.labels
  statusConditions := ⟨d, hdistinct, rfl⟩
  createdTime := h.createdTime
  updatedTime := ⟨now, rfl⟩

end ResourceRow

/-! ## Tables -/

/-- Every row of resources is written, and is read as a resource. -/
def Store.IsWritten (s : Store) : Prop :=
  ∀ r ∈ s.resources, r.IsWritten ∧ ∃ x, Resource.ofRow r = .ok x

namespace Store.IsWritten

variable {s : Store}

theorem start : Store.empty.IsWritten := by
  intro r hr
  cases hr

theorem withResource (h : s.IsWritten) {row : ResourceRow} (hrow : row.IsWritten) {x : Resource}
    (hread : Resource.ofRow row = .ok x) : (s.withResource row).IsWritten := by
  intro r hr
  rcases List.mem_append.mp hr with hr | hr
  · exact h r hr
  · rw [List.mem_singleton.mp hr]
    exact ⟨hrow, x, hread⟩

/-- The time of deletion is nothing that is read. -/
theorem markDeleted (h : s.IsWritten) (resource : ResourceRef) (now : Instant) :
    (s.markDeleted resource now).IsWritten := by
  intro r' hr'
  obtain ⟨r, hr, rfl⟩ := List.mem_map.mp hr'
  obtain ⟨hwritten, x, hread⟩ := h r hr
  cases r.isOf resource with
  | false => exact ⟨hwritten, x, hread⟩
  | true =>
      exact ⟨⟨hwritten.id, hwritten.labels, hwritten.statusConditions, hwritten.createdTime,
        hwritten.updatedTime⟩, x, hread⟩

/-- Conditions that are set at a time that can be stored are read back. -/
theorem setConditions (h : s.IsWritten) (resource : ResourceRef) {d : Document}
    (hdistinct : d.HasDistinctTypes) {now t : Instant}
    (hnow : Instant.parseStrict? now.toStorageText = some t) :
    (s.setConditions resource d.render now).IsWritten := by
  intro r' hr'
  obtain ⟨r, hr, rfl⟩ := List.mem_map.mp hr'
  obtain ⟨hwritten, x, hread⟩ := h r hr
  cases r.isOf resource with
  | false => exact ⟨hwritten, x, hread⟩
  | true =>
      have hsays := Resource.ofRow_eq_ok_iff.mp hread
      refine ⟨hwritten.withConditions hdistinct now,
        { x with statusConditions := d, updatedTime := t }, ?_⟩
      exact Resource.ofRow_eq_ok_iff.mpr {
        hsays with
        statusConditions := ⟨_, rfl, Document.parse_render_of_distinct hdistinct⟩
        updatedTime := ⟨_, rfl, hnow⟩ }

end Store.IsWritten
end StatusBoard

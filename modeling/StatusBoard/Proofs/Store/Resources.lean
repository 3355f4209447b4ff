import StatusBoard.Proofs.Store.Statuses
import StatusBoard.Store.Resources
set_option autoImplicit false

/-!
# Store: what an operation on a resource can come to

One lemma for each operation that writes resources: it fails, and the store is as it was, or it
makes the one change that it is there for, and answers with what the changed row says.
-/

namespace StatusBoard.Store

/-! ## What is not there -/

section Missing
variable {s : Store} {cancel : Cancellation} {resource : ResourceRef}

theorem getResource_of_missing (hcancel : cancel ≠ .before)
    (h : s.findResource? resource = none) : s.getResource cancel resource = .ok none := by
  simp [getResource, Cancellation.checkStart_of_ne hcancel, h, bind, Except.bind, pure, Except.pure]

theorem deleteResource_of_missing (hcancel : cancel ≠ .before)
    (h : s.findResource? resource = none) (now : Instant) :
    s.deleteResource cancel resource now = ⟨s, .error (.notFound (.resource resource))⟩ := by
  simp [deleteResource, Cancellation.checkStart_of_ne hcancel, h, bind, Except.bind, throw, throwThe,
    MonadExceptOf.throw]

theorem updateConditions_of_missing (hcancel : cancel ≠ .before)
    (h : s.findResource? resource = none) (now : Instant) (replace : String → Replacement) :
    s.updateConditions cancel resource now replace =
      ⟨s, .error (.notFound (.resource resource))⟩ := by
  simp [updateConditions, conditionsText, Cancellation.checkStart_of_ne hcancel, h, bind,
    Except.bind]

end Missing

/-! ## What is there -/

section Found
variable {s : Store} {cancel : Cancellation} {resource : ResourceRef}

/-- Reading does not depend on a cancellation that comes too late for it. -/
theorem getResource_eq_never (hcancel : cancel ≠ .before) :
    s.getResource cancel resource = s.getResource .never resource := by
  cases cancel with
  | before => exact absurd rfl hcancel
  | never | underway => rfl

theorem deleteResource_of_found (h : (s.findResource? resource).isSome = true) (now : Instant) :
    s.deleteResource .never resource now = ⟨s.markDeleted resource now, .ok ()⟩ := by
  obtain ⟨row, hrow⟩ := Option.isSome_iff_exists.mp h
  simp [deleteResource, hrow, Cancellation.checkStart, Cancellation.checkEnd, bind, Except.bind,
    pure, Except.pure]

end Found

/-! ## Creation -/

/-- The store with a row of resources added. -/
def withResource (s : Store) (row : ResourceRow) : Store :=
  { s with resources := s.resources ++ [row] }

theorem isOf_toRow_resource (new : NewResource) (id : Uuid) (kind : String) (now : Instant) :
    (new.toRow id kind now).isOf ⟨kind, id.toText⟩ = true := by
  simp [NewResource.toRow, ResourceRow.isOf, ResourceRow.isLive]

/-- A row with a fresh identity is the one that is found under that identity. -/
theorem findResource?_withResource {s : Store} {new : NewResource} {id : Uuid}
    {kind : String} {now : Instant} (h : s.isTaken (new.toRow id kind now) = false) :
    (s.withResource (new.toRow id kind now)).findResource? ⟨kind, id.toText⟩ =
      some (new.toRow id kind now) := by
  have hnone : s.resources.find? (·.isOf ⟨kind, id.toText⟩) = none := by
    rw [List.find?_eq_none]
    intro r hr hof
    have hid : r.id = .text id.toText := by
      simp only [ResourceRow.isOf, Bool.and_eq_true, decide_eq_true_eq] at hof
      exact hof.1.2
    have htaken := List.any_eq_false.mp h r hr
    simp [NewResource.toRow, hid] at htaken
  simp only [findResource?, withResource, List.find?_append, hnone, Option.none_or]
  simp only [List.find?_cons, isOf_toRow_resource]

theorem getResource_never_eq_ok_iff {s : Store} {resource : ResourceRef} {found : Resource} :
    s.getResource .never resource = .ok (some found) ↔
      ∃ row, s.findResource? resource = some row ∧ Resource.ofRow row = .ok found := by
  unfold getResource
  cases hfind : s.findResource? resource with
  | none => simp [Cancellation.checkStart, bind, Except.bind, pure, Except.pure]
  | some row =>
      simp only [Cancellation.checkStart, bind_eq_ok_iff, Option.some.injEq]
      constructor
      · rintro ⟨-, -, decoded, hdecoded, hfound⟩
        cases hfound
        exact ⟨row, rfl, hdecoded⟩
      · rintro ⟨row', hrow, hfound⟩
        cases hrow
        exact ⟨(), trivial, found, hfound, rfl⟩

/-- A resource is created as the one live row of its name and with an identity that no row had. -/
theorem createResource_cases (s : Store) (cancel : Cancellation) (id : Uuid) (kind : String)
    (new : NewResource) (now : Instant) :
    (∃ e, s.createResource cancel id kind new now = ⟨s, .error e⟩) ∨
    ∃ created,
      s.createResource cancel id kind new now =
        ⟨s.withResource (new.toRow id kind now), .ok created⟩ ∧
      s.isTaken (new.toRow id kind now) = false ∧
      Resource.ofRow (new.toRow id kind now) = .ok created := by
  unfold createResource
  apply (s.commit_cases _).imp_right
  rintro ⟨draft, created, hrun, hcommit⟩
  rw [hcommit]
  obtain ⟨-, -, hrun⟩ := bind_eq_ok_iff.mp hrun
  cases htaken : s.isTaken (new.toRow id kind now) with
  | true => simp [htaken, bind, Except.bind, throw, throwThe, MonadExceptOf.throw] at hrun
  | false =>
      simp only [htaken, Bool.false_eq_true, if_false] at hrun
      obtain ⟨found, hfound, hrun⟩ := bind_eq_ok_iff.mp hrun
      cases found with
      | none => cases hrun
      | some resource =>
          obtain ⟨-, -, hrun⟩ := bind_eq_ok_iff.mp hrun
          cases hrun
          obtain ⟨row, hrow, hread⟩ := getResource_never_eq_ok_iff.mp hfound
          have hnew := findResource?_withResource htaken
          rw [withResource, hrow] at hnew
          cases hnew
          exact ⟨created, rfl, rfl, hread⟩

/-- A resource with a fresh identity and a name that is free is created, if it can be read. -/
theorem createResource_of_free {s : Store} {id : Uuid} {kind : String} {new : NewResource}
    {now : Instant} {created : Resource} (hfree : s.isTaken (new.toRow id kind now) = false)
    (hread : Resource.ofRow (new.toRow id kind now) = .ok created) :
    s.createResource .never id kind new now =
      ⟨s.withResource (new.toRow id kind now), .ok created⟩ := by
  have hback : (s.withResource (new.toRow id kind now)).getResource .never ⟨kind, id.toText⟩ =
      .ok (some created) :=
    getResource_never_eq_ok_iff.mpr ⟨_, findResource?_withResource hfree, hread⟩
  rw [withResource] at hback
  simp [createResource, hfree, hback, Cancellation.checkStart, Cancellation.checkEnd, bind,
    Except.bind, pure, Except.pure, withResource]

theorem createResource_of_taken {s : Store} {cancel : Cancellation} {id : Uuid} {kind : String}
    {new : NewResource} {now : Instant} (hcancel : cancel ≠ .before)
    (htaken : s.isTaken (new.toRow id kind now) = true) :
    s.createResource cancel id kind new now = ⟨s, .error (.nameTaken kind new.name)⟩ := by
  simp [createResource, Cancellation.checkStart_of_ne hcancel, htaken, bind, Except.bind, throw,
    throwThe, MonadExceptOf.throw]

/-! ## Deletion -/

/-- A resource is deleted if it was there. -/
theorem deleteResource_cases (s : Store) (cancel : Cancellation) (resource : ResourceRef)
    (now : Instant) :
    (∃ e, s.deleteResource cancel resource now = ⟨s, .error e⟩) ∨
    (s.deleteResource cancel resource now = ⟨s.markDeleted resource now, .ok ()⟩ ∧
      (s.findResource? resource).isSome = true) := by
  unfold deleteResource
  apply (s.commit_cases _).imp_right
  rintro ⟨draft, value, hrun, hcommit⟩
  rw [hcommit]
  obtain ⟨-, -, hrun⟩ := bind_eq_ok_iff.mp hrun
  cases hfind : s.findResource? resource with
  | none => simp [hfind, bind, Except.bind, throw, throwThe, MonadExceptOf.throw] at hrun
  | some row =>
      simp only [hfind, Option.isNone_some, Bool.false_eq_true, if_false] at hrun
      obtain ⟨-, -, hrun⟩ := bind_eq_ok_iff.mp hrun
      cases hrun
      exact ⟨rfl, rfl⟩

/-! ## Conditions -/

theorem findResource?_isOf {s : Store} {resource : ResourceRef} {row : ResourceRow}
    (h : s.findResource? resource = some row) : row.isOf resource = true :=
  List.find?_some (p := fun r : ResourceRow => r.isOf resource) h

/-- A row with its conditions set to a text. -/
def withConditions (raw : String) (now : Instant) (r : ResourceRow) : ResourceRow :=
  { r with statusConditions := .text raw, updatedTime := .text now.toStorageText }

/-- The row of a resource stays the one that is found when its conditions are set. -/
theorem findResource?_setConditions {s : Store} {resource : ResourceRef}
    {row : ResourceRow} (raw : String) (now : Instant) (h : s.findResource? resource = some row) :
    (s.setConditions resource raw now).findResource? resource =
      some (withConditions raw now row) := by
  have hsame : ∀ r : ResourceRow,
      (if r.isOf resource then withConditions raw now r else r).isOf resource =
        r.isOf resource := by
    intro r
    by_cases hof : r.isOf resource
    · rw [if_pos hof]
      rfl
    · rw [if_neg hof]
  have hrow : row.isOf resource = true := findResource?_isOf h
  change (s.resources.map fun r =>
    if r.isOf resource then withConditions raw now r else r).find? _ = _
  rw [List.find?_map, Function.comp_def]
  simp only [hsame]
  change (s.findResource? resource).map _ = _
  rw [h, Option.map_some, if_pos hrow]

/-- The conditions of a resource are set to what is made of their text, and are read back. -/
theorem updateConditions_cases (s : Store) (cancel : Cancellation)
    (resource : ResourceRef) (now : Instant) (replace : String → Replacement) :
    (∃ e, s.updateConditions cancel resource now replace = ⟨s, .error e⟩) ∨
    ∃ row raw updated,
      s.updateConditions cancel resource now replace =
        ⟨s.setConditions resource (replace raw).raw now, .ok updated⟩ ∧
      s.findResource? resource = some row ∧ row.statusConditions = .text raw ∧
      Resource.ofRow (withConditions (replace raw).raw now row) = .ok updated := by
  unfold updateConditions
  apply (s.commit_cases _).imp_right
  rintro ⟨draft, updated, hrun, hcommit⟩
  rw [hcommit]
  obtain ⟨-, -, hrun⟩ := bind_eq_ok_iff.mp hrun
  obtain ⟨raw, hraw, hrun⟩ := bind_eq_ok_iff.mp hrun
  obtain ⟨found, hfound, hrun⟩ := bind_eq_ok_iff.mp hrun
  cases found with
  | none => cases hrun
  | some resource' =>
      obtain ⟨-, -, hrun⟩ := bind_eq_ok_iff.mp hrun
      cases hrun
      unfold conditionsText at hraw
      cases hfind : s.findResource? resource with
      | none => simp [hfind] at hraw
      | some row =>
          simp only [hfind, StatusColumns.textAt_eq_ok_iff] at hraw
          obtain ⟨row', hrow', hread⟩ := getResource_never_eq_ok_iff.mp hfound
          rw [findResource?_setConditions _ _ hfind] at hrow'
          cases hrow'
          exact ⟨row, raw, updated, rfl, rfl, hraw, hread⟩

/-- Conditions that a resource has as a text are replaced, if the resource can be read then. -/
theorem updateConditions_of_found {s : Store} {resource : ResourceRef} {now : Instant}
    {replace : String → Replacement} {row : ResourceRow} {raw : String} {updated : Resource}
    (hfind : s.findResource? resource = some row) (htext : row.statusConditions = .text raw)
    (hcancels : (replace raw).cancels = false)
    (hread : Resource.ofRow (withConditions (replace raw).raw now row) = .ok updated) :
    s.updateConditions .never resource now replace =
      ⟨s.setConditions resource (replace raw).raw now, .ok updated⟩ := by
  have hraw : s.conditionsText resource = .ok raw := by
    rw [conditionsText, hfind]
    exact StatusColumns.textAt_eq_ok_iff.mpr htext
  have hback : (s.setConditions resource (replace raw).raw now).getResource .never resource =
      .ok (some updated) :=
    getResource_never_eq_ok_iff.mpr ⟨_, findResource?_setConditions _ now hfind, hread⟩
  simp [updateConditions, hraw, hback, hcancels, Cancellation.checkStart, Cancellation.checkEnd,
    bind, Except.bind, pure, Except.pure]

end StatusBoard.Store

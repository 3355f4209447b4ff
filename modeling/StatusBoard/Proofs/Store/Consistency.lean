import Mathlib.Data.List.Dedup
import Mathlib.Data.List.Pairwise
import StatusBoard.Proofs.Store.Resources
set_option autoImplicit false

/-!
# Store: the tables agree with each other

No foreign key ties a status to its resource, and the promise of one row per key is kept by looking
before writing.  `Store.Consistent` says what the tables promise each other, relative to the keys
that were ever written; every change that an operation can make keeps it.
-/

namespace StatusBoard

/-! ## Rows of one key, rows of one name -/

namespace StatusRow

/-- The row has the columns of a key. -/
def HasKey (r : StatusRow) (key : StatusKey) : Prop :=
  r.resourceType = .text key.resourceType ∧ r.resourceId = .text key.resourceId ∧
    r.adapter = .text key.adapter

/-- Both rows are live, and have one key. -/
def Clashes (a b : StatusRow) : Prop :=
  a.isLive = true ∧ b.isLive = true ∧ a.resourceType = b.resourceType ∧
    a.resourceId = b.resourceId ∧ a.adapter = b.adapter

theorem isAbout_iff {r : StatusRow} {resource : ResourceRef} :
    r.isAbout resource = true ↔
      r.resourceType = .text resource.kind ∧ r.resourceId = .text resource.id ∧
      r.isLive = true := by
  simp only [isAbout, Bool.and_eq_true, decide_eq_true_eq, and_assoc]

theorem isOf_iff {r : StatusRow} {key : StatusKey} :
    r.isOf key = true ↔ r.HasKey key ∧ r.isLive = true := by
  simp only [isOf, Bool.and_eq_true, decide_eq_true_eq, isAbout_iff, HasKey, StatusKey.owner]
  constructor
  · rintro ⟨⟨htype, howner, hlive⟩, hadapter⟩
    exact ⟨⟨htype, howner, hadapter⟩, hlive⟩
  · rintro ⟨⟨htype, howner, hadapter⟩, hlive⟩
    exact ⟨⟨htype, howner, hlive⟩, hadapter⟩

theorem clashes_of_isOf {a b : StatusRow} {key : StatusKey} (ha : a.isOf key = true)
    (hb : b.isOf key = true) : a.Clashes b := by
  obtain ⟨⟨htype, howner, hadapter⟩, hlive⟩ := isOf_iff.mp ha
  obtain ⟨⟨htype', howner', hadapter'⟩, hlive'⟩ := isOf_iff.mp hb
  exact ⟨hlive, hlive', htype.trans htype'.symm, howner.trans howner'.symm,
    hadapter.trans hadapter'.symm⟩

theorem HasKey.inj {r : StatusRow} {key key' : StatusKey} (h : r.HasKey key) (h' : r.HasKey key') :
    key = key' := by
  obtain ⟨htype, howner, hadapter⟩ := h
  obtain ⟨htype', howner', hadapter'⟩ := h'
  cases key
  cases key'
  rw [htype] at htype'
  rw [howner] at howner'
  rw [hadapter] at hadapter'
  cases htype'
  cases howner'
  cases hadapter'
  rfl

/-- A row of a key is about the owner of the key and about nothing else. -/
theorem isAbout_iff_owner {r : StatusRow} {key : StatusKey} (h : r.isOf key = true)
    (resource : ResourceRef) : r.isAbout resource = true ↔ key.owner = resource := by
  obtain ⟨⟨htype, howner, -⟩, hlive⟩ := isOf_iff.mp h
  rw [isAbout_iff, htype, howner]
  simp only [Cell.text.injEq, hlive, and_true, StatusKey.owner]
  constructor
  · rintro ⟨hkind, hid⟩
    rw [hkind, hid]
  · rintro rfl
    exact ⟨rfl, rfl⟩

/-- Rows of statuses that can be told apart: all by their identities, which are in the written form,
and the live ones by their keys. -/
structure AreDistinct (rows : List StatusRow) : Prop where
  numbered : ∀ r ∈ rows, ∃ id : Uuid, r.id = .text id.toText
  ids : rows.Pairwise fun a b => a.id ≠ b.id
  keyed : ∀ r ∈ rows, ∃ key, r.HasKey key
  keys : rows.Pairwise fun a b => ¬ a.Clashes b

namespace AreDistinct

theorem nil : AreDistinct [] where
  numbered := by simp
  ids := List.Pairwise.nil
  keyed := by simp
  keys := List.Pairwise.nil

/-- A row with a fresh identity may be added for a key that no live row has. -/
theorem snoc {rows : List StatusRow} (h : AreDistinct rows) {row : StatusRow} {id : Uuid}
    {key : StatusKey} (hid : row.id = .text id.toText) (hkey : row.HasKey key)
    (hfresh : ∀ r ∈ rows, r.id ≠ row.id)
    (habsent : ∀ r ∈ rows, ¬ r.isOf key = true) : AreDistinct (rows ++ [row]) where
  numbered := by
    intro r hr
    rcases List.mem_append.mp hr with hr | hr
    · exact h.numbered r hr
    · exact ⟨id, (congrArg StatusRow.id (List.mem_singleton.mp hr)).trans hid⟩
  ids := by
    refine List.pairwise_append.mpr ⟨h.ids, List.pairwise_singleton _ _, ?_⟩
    intro a ha b hb
    rw [List.mem_singleton.mp hb]
    exact hfresh a ha
  keyed := by
    intro r hr
    rcases List.mem_append.mp hr with hr | hr
    · exact h.keyed r hr
    · rw [List.mem_singleton.mp hr]
      exact ⟨key, hkey⟩
  keys := by
    refine List.pairwise_append.mpr ⟨h.keys, List.pairwise_singleton _ _, ?_⟩
    intro a ha b hb
    rw [List.mem_singleton.mp hb]
    rintro ⟨hlive, -, htype, howner, hadapter⟩
    exact habsent a ha (isOf_iff.mpr
      ⟨⟨htype.trans hkey.1, howner.trans hkey.2.1, hadapter.trans hkey.2.2⟩, hlive⟩)

/-- Rows may be changed in what does not tell them apart, and be deleted. -/
theorem map {rows : List StatusRow} (h : AreDistinct rows) {f : StatusRow → StatusRow}
    (hid : ∀ r, (f r).id = r.id)
    (hkey : ∀ r, (f r).resourceType = r.resourceType ∧ (f r).resourceId = r.resourceId ∧
      (f r).adapter = r.adapter)
    (hlive : ∀ r, (f r).isLive = true → r.isLive = true) : AreDistinct (rows.map f) where
  numbered := by
    intro r' hr'
    obtain ⟨r, hr, rfl⟩ := List.mem_map.mp hr'
    rw [hid]
    exact h.numbered r hr
  ids := by
    rw [List.pairwise_map]
    simpa only [hid] using h.ids
  keyed := by
    intro r' hr'
    obtain ⟨r, hr, rfl⟩ := List.mem_map.mp hr'
    simpa only [HasKey, hkey] using h.keyed r hr
  keys := by
    rw [List.pairwise_map]
    refine h.keys.imp fun hnot hclash => hnot ?_
    obtain ⟨ha, hb, hcells⟩ := hclash
    simp only [hkey] at hcells
    exact ⟨hlive _ ha, hlive _ hb, hcells⟩

theorem eq_of_id {rows : List StatusRow} (h : AreDistinct rows) {a b : StatusRow}
    (ha : a ∈ rows) (hb : b ∈ rows) (hid : a.id = b.id) : a = b := by
  have hsymm : Std.Symm fun a b : StatusRow => a.id ≠ b.id := ⟨fun _ _ hdiffer => hdiffer.symm⟩
  by_contra hne
  exact h.ids.forall ha hb hne hid

theorem eq_of_isOf {rows : List StatusRow} (h : AreDistinct rows) {a b : StatusRow}
    {key : StatusKey} (ha : a ∈ rows) (hb : b ∈ rows) (hof : a.isOf key = true)
    (hof' : b.isOf key = true) : a = b := by
  have hsymm : Std.Symm fun a b : StatusRow => ¬ a.Clashes b := by
    refine ⟨?_⟩
    rintro x y hnot ⟨hx, hy, htype, howner, hadapter⟩
    exact hnot ⟨hy, hx, htype.symm, howner.symm, hadapter.symm⟩
  by_contra hne
  exact h.keys.forall ha hb hne (clashes_of_isOf hof hof')

end AreDistinct
end StatusRow

namespace ResourceRow

/-- Both rows are live, and have one kind and name. -/
def Clashes (a b : ResourceRow) : Prop :=
  a.isLive = true ∧ b.isLive = true ∧ a.kind = b.kind ∧ a.name = b.name

theorem isOf_iff {r : ResourceRow} {resource : ResourceRef} :
    r.isOf resource = true ↔
      r.kind = .text resource.kind ∧ r.id = .text resource.id ∧ r.isLive = true := by
  simp only [isOf, Bool.and_eq_true, decide_eq_true_eq, and_assoc]

/-- A row is that of one resource only. -/
theorem isOf_iff_eq {r : ResourceRow} {resource : ResourceRef} (h : r.isOf resource = true)
    (other : ResourceRef) : r.isOf other = true ↔ resource = other := by
  obtain ⟨hkind, hid, hlive⟩ := isOf_iff.mp h
  rw [isOf_iff, hkind, hid]
  simp only [Cell.text.injEq, hlive, and_true]
  constructor
  · rintro ⟨hkind', hid'⟩
    cases resource
    cases other
    cases hkind'
    cases hid'
    rfl
  · rintro rfl
    exact ⟨rfl, rfl⟩

end ResourceRow

namespace Store

/-- The resource is live. -/
def Shows (s : Store) (resource : ResourceRef) : Prop :=
  ∃ r ∈ s.resources, r.isOf resource = true

/-- The key has a live row. -/
def Keeps (s : Store) (key : StatusKey) : Prop :=
  ∃ r ∈ s.statuses, r.isOf key = true

theorem isSome_findResource?_iff {s : Store} {resource : ResourceRef} :
    (s.findResource? resource).isSome = true ↔ s.Shows resource := by
  simp only [findResource?, List.find?_isSome, Shows]

theorem findStatus?_eq_none_iff {s : Store} {key : StatusKey} :
    s.findStatus? key = none ↔ ¬ s.Keeps key := by
  simp only [findStatus?, List.find?_eq_none, Keeps, not_exists, not_and]

/-- What the tables promise each other, given the keys that a write was committed for. -/
structure Consistent (s : Store) (written : List StatusKey) : Prop where
  distinct : StatusRow.AreDistinct s.statuses
  /-- Live statuses are read. -/
  readable : ∀ r ∈ s.statuses, r.isLive = true → ∃ record, StatusRecord.ofRow r = .ok record
  /-- At most one live resource has a kind and a name. -/
  resourceIds : s.resources.Pairwise fun a b => a.id ≠ b.id
  names : s.resources.Pairwise fun a b => ¬ a.Clashes b
  /-- What was written was written about a resource that was there, and is there as
  long as the resource is. -/
  known : ∀ key ∈ written, ∃ r ∈ s.resources, r.id = .text key.resourceId
  kept : ∀ key, s.Keeps key ↔ key ∈ written ∧ s.Shows key.owner

namespace Consistent

theorem empty : Consistent Store.empty [] where
  distinct := .nil
  readable := by simp [Store.empty]
  resourceIds := List.Pairwise.nil
  names := List.Pairwise.nil
  known := by simp
  kept := by simp [Keeps, Store.empty]

/-- Resources of one identity are one. -/
theorem resource_eq_of_id {s : Store} {written : List StatusKey} (h : s.Consistent written)
    {a b : ResourceRow} (ha : a ∈ s.resources) (hb : b ∈ s.resources) (hid : a.id = b.id) :
    a = b := by
  have hsymm : Std.Symm fun a b : ResourceRow => a.id ≠ b.id := ⟨fun _ _ hdiffer => hdiffer.symm⟩
  by_contra hne
  exact h.resourceIds.forall ha hb hne hid

/-- Live resources of one kind and name are one. -/
theorem resource_eq_of_clashes {s : Store} {written : List StatusKey} (h : s.Consistent written)
    {a b : ResourceRow} (ha : a ∈ s.resources) (hb : b ∈ s.resources) (hclash : a.Clashes b) :
    a = b := by
  have hsymm : Std.Symm fun a b : ResourceRow => ¬ a.Clashes b := by
    refine ⟨?_⟩
    rintro x y hnot ⟨hx, hy, hkind, hname⟩
    exact hnot ⟨hy, hx, hkind.symm, hname.symm⟩
  by_contra hne
  exact h.names.forall ha hb hne hclash

/-- Another row has another identity, and is not that of the same resource. -/
theorem foreign {s : Store} {written : List StatusKey} (h : s.Consistent written)
    {row other : ResourceRow} {resource : ResourceRef} (hrow : row ∈ s.resources)
    (hother : other ∈ s.resources) (hne : other ≠ row) (hof : row.isOf resource = true) :
    other.id ≠ row.id ∧ ¬ other.isOf resource = true := by
  have hdiffer : other.id ≠ row.id := by
    intro heq
    exact hne (h.resource_eq_of_id hother hrow heq)
  refine ⟨hdiffer, ?_⟩
  intro hofother
  have hid := (ResourceRow.isOf_iff.mp hof).2.1
  exact hdiffer ((ResourceRow.isOf_iff.mp hofother).2.1.trans hid.symm)

/-! ## Resources are added -/

theorem not_isTaken_iff {s : Store} {row : ResourceRow} :
    s.isTaken row = false ↔
      ∀ r ∈ s.resources,
        r.id ≠ row.id ∧ ¬ (r.isLive = true ∧ r.kind = row.kind ∧ r.name = row.name) := by
  simp only [isTaken, List.any_eq_false, Bool.not_eq_true, Bool.or_eq_false_iff,
    decide_eq_false_iff_not, Bool.and_eq_false_iff, not_and, ne_eq]
  apply forall_congr'
  intro r
  apply forall_congr'
  intro _
  apply and_congr_right
  intro _
  cases r.isLive <;> simp [imp_iff_not_or]

theorem shows_withResource {s : Store} {row : ResourceRow} {resource : ResourceRef} :
    (s.withResource row).Shows resource ↔ s.Shows resource ∨ row.isOf resource = true := by
  simp only [Shows, withResource, List.mem_append, List.mem_singleton, or_and_right,
    exists_or, exists_eq_left]

theorem withResource {s : Store} {written : List StatusKey} (h : s.Consistent written)
    {row : ResourceRow} (hfree : s.isTaken row = false) :
    (s.withResource row).Consistent written where
  distinct := h.distinct
  readable := h.readable
  resourceIds := by
    refine List.pairwise_append.mpr ⟨h.resourceIds, List.pairwise_singleton _ _, ?_⟩
    intro a ha b hb
    rw [List.mem_singleton.mp hb]
    exact (not_isTaken_iff.mp hfree a ha).1
  names := by
    refine List.pairwise_append.mpr ⟨h.names, List.pairwise_singleton _ _, ?_⟩
    intro a ha b hb hclash
    rw [List.mem_singleton.mp hb] at hclash
    exact (not_isTaken_iff.mp hfree a ha).2 ⟨hclash.1, hclash.2.2.1, hclash.2.2.2⟩
  known := by
    intro key hkey
    obtain ⟨r, hr, hid⟩ := h.known key hkey
    exact ⟨r, List.mem_append_left _ hr, hid⟩
  kept := by
    intro key
    rw [shows_withResource]
    refine (h.kept key).trans (and_congr_right fun hkey => ⟨Or.inl, ?_⟩)
    rintro (hshows | hof)
    · exact hshows
    · obtain ⟨r, hr, hid⟩ := h.known key hkey
      have hrow : row.id = .text key.resourceId := (ResourceRow.isOf_iff.mp hof).2.1
      exact absurd (hid.trans hrow.symm) (not_isTaken_iff.mp hfree r hr).1

/-! ## Resources are deleted -/

/-- A status when a resource is deleted. -/
def withoutOwner (resource : ResourceRef) (now : Instant) (r : StatusRow) : StatusRow :=
  if r.isAbout resource then { r with deletedTime := .text now.toStorageText } else r

/-- A row of resources when a resource is deleted. -/
def without (resource : ResourceRef) (now : Instant) (r : ResourceRow) : ResourceRow :=
  if r.isOf resource then { r with deletedTime := .text now.toStorageText } else r

theorem markDeleted_eq (s : Store) (resource : ResourceRef) (now : Instant) :
    s.markDeleted resource now =
      ⟨s.resources.map (without resource now), s.statuses.map (withoutOwner resource now)⟩ := rfl

theorem isLive_withoutOwner {resource : ResourceRef} {now : Instant} {r : StatusRow}
    (h : (withoutOwner resource now r).isLive = true) : r.isAbout resource = false := by
  unfold withoutOwner at h
  cases habout : r.isAbout resource with
  | true => simp [habout, StatusRow.isLive] at h
  | false => rfl

theorem withoutOwner_of_isLive {resource : ResourceRef} {now : Instant} {r : StatusRow}
    (h : (withoutOwner resource now r).isLive = true) : withoutOwner resource now r = r := by
  simp [withoutOwner, isLive_withoutOwner h]

theorem without_of_isLive {resource : ResourceRef} {now : Instant} {r : ResourceRow}
    (h : (without resource now r).isLive = true) :
    without resource now r = r ∧ r.isOf resource = false := by
  unfold without at h ⊢
  cases hof : r.isOf resource with
  | true => simp [hof, ResourceRow.isLive] at h
  | false => exact ⟨by simp, rfl⟩

theorem id_withoutOwner (resource : ResourceRef) (now : Instant) (r : StatusRow) :
    (withoutOwner resource now r).id = r.id := by
  unfold withoutOwner
  cases r.isAbout resource <;> rfl

theorem cells_withoutOwner (resource : ResourceRef) (now : Instant) (r : StatusRow) :
    (withoutOwner resource now r).resourceType = r.resourceType ∧
      (withoutOwner resource now r).resourceId = r.resourceId ∧
      (withoutOwner resource now r).adapter = r.adapter := by
  unfold withoutOwner
  cases r.isAbout resource <;> exact ⟨rfl, rfl, rfl⟩

@[simp] theorem id_without (resource : ResourceRef) (now : Instant) (r : ResourceRow) :
    (without resource now r).id = r.id := by
  unfold without
  cases r.isOf resource <;> rfl

/-- A deletion takes away the statuses of the one resource. -/
theorem keeps_markDeleted {s : Store} {resource : ResourceRef} {now : Instant} {key : StatusKey} :
    (s.markDeleted resource now).Keeps key ↔ s.Keeps key ∧ key.owner ≠ resource := by
  rw [markDeleted_eq]
  constructor
  · rintro ⟨r', hr', hof⟩
    obtain ⟨r, hr, rfl⟩ := List.mem_map.mp hr'
    have hlive := (StatusRow.isOf_iff.mp hof).2
    rw [withoutOwner_of_isLive hlive] at hof
    refine ⟨⟨r, hr, hof⟩, fun howner => ?_⟩
    rw [← StatusRow.isAbout_iff_owner hof, isLive_withoutOwner hlive] at howner
    cases howner
  · rintro ⟨⟨r, hr, hof⟩, hother⟩
    rw [ne_eq, ← StatusRow.isAbout_iff_owner hof] at hother
    exact ⟨r, List.mem_map.mpr ⟨r, hr, by simp [withoutOwner, hother]⟩, hof⟩

/-- A deletion takes away the one resource. -/
theorem shows_markDeleted {s : Store} {resource other : ResourceRef} {now : Instant} :
    (s.markDeleted resource now).Shows other ↔ s.Shows other ∧ other ≠ resource := by
  rw [markDeleted_eq]
  constructor
  · rintro ⟨r', hr', hof⟩
    obtain ⟨r, hr, rfl⟩ := List.mem_map.mp hr'
    obtain ⟨hsame, hnot⟩ := without_of_isLive (ResourceRow.isOf_iff.mp hof).2.2
    rw [hsame] at hof
    refine ⟨⟨r, hr, hof⟩, fun hother => ?_⟩
    rw [hother, hnot] at hof
    cases hof
  · rintro ⟨⟨r, hr, hof⟩, hother⟩
    rw [ne_eq, ← ResourceRow.isOf_iff_eq hof] at hother
    exact ⟨r, List.mem_map.mpr ⟨r, hr, by simp [without, hother]⟩, hof⟩

theorem markDeleted {s : Store} {written : List StatusKey} (h : s.Consistent written)
    (resource : ResourceRef) (now : Instant) : (s.markDeleted resource now).Consistent written where
  distinct := by
    apply h.distinct.map (id_withoutOwner resource now) (cells_withoutOwner resource now)
    intro r hlive
    rw [← withoutOwner_of_isLive hlive]
    exact hlive
  readable := by
    intro r' hr' hlive
    obtain ⟨r, hr, rfl⟩ := List.mem_map.mp hr'
    change (withoutOwner resource now r).isLive = true at hlive
    have hsame := withoutOwner_of_isLive hlive
    rw [hsame] at hlive
    obtain ⟨record, hrecord⟩ := h.readable r hr hlive
    exact ⟨record, (congrArg StatusRecord.ofRow hsame).trans hrecord⟩
  resourceIds := by
    rw [markDeleted_eq, List.pairwise_map]
    simpa using h.resourceIds
  names := by
    rw [markDeleted_eq, List.pairwise_map]
    apply h.names.imp
    intro _ _ hnot hclash
    rw [(without_of_isLive hclash.1).1, (without_of_isLive hclash.2.1).1] at hclash
    exact hnot hclash
  known := by
    intro key hkey
    obtain ⟨r, hr, hid⟩ := h.known key hkey
    exact ⟨_, List.mem_map_of_mem hr, (id_without resource now r).trans hid⟩
  kept := by
    intro key
    rw [keeps_markDeleted, shows_markDeleted, h.kept key, and_assoc]

/-! ## Conditions are set -/

/-- A row of resources when conditions of a resource are set. -/
def conditioned (resource : ResourceRef) (raw : String) (now : Instant) (r : ResourceRow) :
    ResourceRow :=
  if r.isOf resource then withConditions raw now r else r

theorem setConditions_eq (s : Store) (resource : ResourceRef) (raw : String) (now : Instant) :
    s.setConditions resource raw now =
      ⟨s.resources.map (conditioned resource raw now), s.statuses⟩ := rfl

/-- Conditions are nothing that a row is told by. -/
theorem conditioned_same (resource : ResourceRef) (raw : String) (now : Instant) (r : ResourceRow) :
    (conditioned resource raw now r).id = r.id ∧ (conditioned resource raw now r).kind = r.kind ∧
      (conditioned resource raw now r).name = r.name ∧
      (conditioned resource raw now r).isLive = r.isLive := by
  unfold conditioned
  cases r.isOf resource <;> exact ⟨rfl, rfl, rfl, rfl⟩

theorem shows_setConditions {s : Store} {resource other : ResourceRef} {raw : String}
    {now : Instant} : (s.setConditions resource raw now).Shows other ↔ s.Shows other := by
  simp only [setConditions_eq, Shows, List.mem_map, exists_exists_and_eq_and, ResourceRow.isOf_iff,
    conditioned_same]

theorem setConditions {s : Store} {written : List StatusKey} (h : s.Consistent written)
    (resource : ResourceRef) (raw : String) (now : Instant) :
    (s.setConditions resource raw now).Consistent written where
  distinct := h.distinct
  readable := h.readable
  resourceIds := by
    rw [setConditions_eq, List.pairwise_map]
    simpa only [conditioned_same] using h.resourceIds
  names := by
    rw [setConditions_eq, List.pairwise_map]
    simpa only [ResourceRow.Clashes, conditioned_same] using h.names
  known := by
    intro key hkey
    obtain ⟨r, hr, hid⟩ := h.known key hkey
    exact ⟨_, List.mem_map_of_mem hr, (conditioned_same resource raw now r).1.trans hid⟩
  kept := by
    intro key
    rw [shows_setConditions]
    exact h.kept key

/-! ## Statuses are written -/

theorem keeps_withStatus {s : Store} {row : StatusRow} {key : StatusKey} :
    (s.withStatus row).Keeps key ↔ s.Keeps key ∨ row.isOf key = true := by
  simp only [Keeps, withStatus, List.mem_append, List.mem_singleton, or_and_right,
    exists_or, exists_eq_left]

theorem hasKey_toRow (w : StatusWrite) (id : Uuid) (key : StatusKey) :
    (w.toRow id key).HasKey key :=
  (StatusRow.isOf_iff.mp (isOf_toRow w id key)).1

theorem not_isOf_of_absent {s : Store} {key : StatusKey} (h : s.findStatus? key = none) :
    ∀ r ∈ s.statuses, ¬ r.isOf key = true := by
  intro r hr hof
  exact findStatus?_eq_none_iff.mp h ⟨r, hr, hof⟩

/-- The owner of a key is known once it is shown. -/
theorem known_of_shows {s : Store} {key : StatusKey} (h : s.Shows key.owner) :
    ∃ r ∈ s.resources, r.id = .text key.resourceId := by
  obtain ⟨r, hr, hof⟩ := h
  exact ⟨r, hr, (ResourceRow.isOf_iff.mp hof).2.1⟩

/-- Keys that are written join those that were. -/
theorem known_snoc {s : Store} {written : List StatusKey} (h : s.Consistent written)
    {key : StatusKey} (howner : s.Shows key.owner) :
    ∀ k ∈ written ++ [key], ∃ r ∈ s.resources, r.id = .text k.resourceId := by
  intro k hk
  rcases List.mem_append.mp hk with hk | hk
  · exact h.known k hk
  · rw [List.mem_singleton.mp hk]
    exact known_of_shows howner

/-- A row that is added for a key without one, on a live resource. -/
theorem insert {s : Store} {written : List StatusKey} (h : s.Consistent written)
    {key : StatusKey} {id : Uuid} {w : StatusWrite} {record : StatusRecord}
    (howner : s.Shows key.owner)
    (hfresh : ∀ r ∈ s.statuses, r.id ≠ .text id.toText) (habsent : s.findStatus? key = none)
    (hread : StatusRecord.ofRow (w.toRow id key) = .ok record) :
    (s.withStatus (w.toRow id key)).Consistent (written ++ [key]) where
  distinct := h.distinct.snoc rfl (hasKey_toRow w id key) hfresh (not_isOf_of_absent habsent)
  readable := by
    intro r hr hlive
    rcases List.mem_append.mp hr with hr | hr
    · exact h.readable r hr hlive
    · rw [List.mem_singleton.mp hr]
      exact ⟨record, hread⟩
  resourceIds := h.resourceIds
  names := h.names
  known := h.known_snoc howner
  kept := by
    intro k
    rw [keeps_withStatus, h.kept k, List.mem_append, List.mem_singleton]
    have hrow : (w.toRow id key).isOf k = true ↔ k = key := by
      rw [StatusRow.isOf_iff]
      constructor
      · rintro ⟨hkey, -⟩
        exact hkey.inj (hasKey_toRow w id key)
      · rintro rfl
        exact ⟨hasKey_toRow w id k, rfl⟩
    rw [hrow, or_and_right]
    refine or_congr_right ⟨?_, And.left⟩
    rintro rfl
    exact ⟨rfl, howner⟩

/-- The store as an upsert finds it has no other rows of the key than the one that
another writer added. -/
inductive Joins (key : StatusKey) (s : Store) : Store → Prop where
  | alone : Joins key s s
  | joined {r : StatusRow} {id : Uuid} (hid : r.id = .text id.toText) (hof : r.isOf key = true)
      (hfresh : ∀ x ∈ s.statuses, x.id ≠ r.id) (habsent : s.findStatus? key = none) :
      Joins key s (s.withStatus r)

theorem Joins.distinct {key : StatusKey} {s base : Store} (h : Joins key s base)
    (hdistinct : StatusRow.AreDistinct s.statuses) : StatusRow.AreDistinct base.statuses := by
  cases h with
  | alone => exact hdistinct
  | joined hid hof hfresh habsent =>
      exact hdistinct.snoc hid (StatusRow.isOf_iff.mp hof).1 hfresh (not_isOf_of_absent habsent)

theorem Joins.resources {key : StatusKey} {s base : Store} (h : Joins key s base) :
    base.resources = s.resources := by
  cases h <;> rfl

/-- A row that joined is one of the key. -/
theorem Joins.mem {key : StatusKey} {s base : Store} (h : Joins key s base) {r : StatusRow}
    (hr : r ∈ base.statuses) : r ∈ s.statuses ∨ r.isOf key = true := by
  cases h with
  | alone => exact .inl hr
  | joined _ hof _ _ =>
      rcases List.mem_append.mp hr with hr | hr
      · exact .inl hr
      · rw [List.mem_singleton.mp hr]
        exact .inr hof

theorem Joins.keeps {key : StatusKey} {s base : Store} (h : Joins key s base)
    (hkeeps : base.Keeps key) (k : StatusKey) : base.Keeps k ↔ s.Keeps k ∨ k = key := by
  cases h with
  | alone =>
      refine ⟨Or.inl, ?_⟩
      rintro (hk | rfl)
      · exact hk
      · exact hkeeps
  | joined _ hof _ _ =>
      rw [keeps_withStatus]
      refine or_congr_right ⟨fun hofk => ?_, ?_⟩
      · exact (StatusRow.isOf_iff.mp hofk).1.inj (StatusRow.isOf_iff.mp hof).1
      · rintro rfl
        exact hof

theorem keeps_overwritten {s : Store} {id : Uuid} {w : StatusWrite} {key : StatusKey} :
    (s.overwritten id w).Keeps key ↔ s.Keeps key := by
  simp only [Keeps, overwritten, List.mem_map, exists_exists_and_eq_and, overwritten_same]

/-- The row of a live key is overwritten. -/
theorem overwrite {s base : Store} {written : List StatusKey} (h : s.Consistent written)
    {key : StatusKey} {id : Uuid} {w : StatusWrite} {row : StatusRow} {record : StatusRecord}
    (howner : s.Shows key.owner) (hjoins : Joins key s base) (hrow : row ∈ base.statuses)
    (hof : row.isOf key = true) (hnumbered : isNumbered id row = true)
    (hread : StatusRecord.ofRow (w.applyTo row) = .ok record) :
    (base.overwritten id w).Consistent (written ++ [key]) where
  distinct := by
    refine (hjoins.distinct h.distinct).map ?_ ?_ ?_
    · intro r
      exact (overwritten_same id w r).1
    · intro r
      cases isNumbered id r <;> exact ⟨rfl, rfl, rfl⟩
    · intro r hlive
      cases hr : isNumbered id r with
      | true => rw [hr] at hlive; exact hlive
      | false => rw [hr] at hlive; exact hlive
  readable := by
    have hdistinct := hjoins.distinct h.distinct
    intro r' hr' hlive
    obtain ⟨r, hr, rfl⟩ := List.mem_map.mp hr'
    cases hcase : isNumbered id r with
    | true =>
        have hid : r.id = row.id := by
          simp only [isNumbered, Bool.and_eq_true, decide_eq_true_eq] at hcase hnumbered
          exact hcase.1.trans hnumbered.1.symm
        rw [hdistinct.eq_of_id hr hrow hid]
        exact ⟨record, by simpa using hread⟩
    | false =>
        rcases hjoins.mem hr with hold | hofr
        · simp only [hcase, Bool.false_eq_true, if_false] at hlive ⊢
          exact h.readable r hold hlive
        · rw [hdistinct.eq_of_isOf hr hrow hofr hof, hnumbered] at hcase
          cases hcase
  resourceIds := by
    simpa only [overwritten, hjoins.resources] using h.resourceIds
  names := by
    simpa only [overwritten, hjoins.resources] using h.names
  known := by
    simpa only [overwritten, hjoins.resources] using h.known_snoc howner
  kept := by
    intro k
    have hshows : (base.overwritten id w).Shows k.owner ↔ s.Shows k.owner := by
      simp only [Shows, overwritten, hjoins.resources]
    rw [keeps_overwritten, hjoins.keeps ⟨row, hrow, hof⟩ k, hshows, h.kept k, List.mem_append,
      List.mem_singleton, or_and_right]
    refine or_congr_right ⟨?_, And.left⟩
    rintro rfl
    exact ⟨rfl, howner⟩

/-- A row of a store that tells its rows apart is found under the identity that it is read with. -/
theorem isNumbered_of_read {rows : List StatusRow} (h : StatusRow.AreDistinct rows)
    {row : StatusRow} {previous : StatusRecord} (hrow : row ∈ rows) (hlive : row.isLive = true)
    (hcolumns : row.Says previous) : isNumbered previous.id row = true := by
  obtain ⟨id, hid⟩ := h.numbered row hrow
  have hprevious : previous.id = id := Uuid.eq_of_read hid hcolumns.id
  simp [isNumbered, hid, hlive, hprevious]

/-- Whatever an upsert writes, the tables still agree. -/
theorem writes {s base draft : Store} {written : List StatusKey} (h : s.Consistent written)
    {planner : Planner} {key : StatusKey} {id : Uuid} {inserted : Bool} {record : StatusRecord}
    (howner : s.Shows key.owner) (hjoins : Joins key s base)
    (hwrites : Writes planner key id base draft inserted)
    (hread : ∃ row, draft.findStatus? key = some row ∧ StatusRecord.ofRow row = .ok record) :
    draft.Consistent (written ++ [key]) := by
  obtain ⟨row', hfind, hread⟩ := hread
  cases hwrites with
  | insert plan fresh absent =>
      rw [findStatus?_withStatus absent] at hfind
      cases hfind
      cases hjoins with
      | alone => exact h.insert howner fresh absent hread
      | joined hid hof hfresh habsent =>
          exact absurd (keeps_withStatus.mpr (.inr hof)) (findStatus?_eq_none_iff.mp absent)
  | @update _ w row previous plan found read numbered =>
      have hrow := List.mem_of_find?_eq_some found
      have hof := findStatus?_isOf found
      have hnumbered := isNumbered_of_read (hjoins.distinct h.distinct) hrow
        (findStatus?_isLive found) (StatusRecord.says_of_ofRowForUpdate read)
      rw [findStatus?_overwritten_of_isNumbered found hnumbered] at hfind
      cases hfind
      exact h.overwrite howner hjoins hrow hof hnumbered hread

/-- What there is to be overwritten is read. -/
theorem getStatusForUpdate {s : Store} {written : List StatusKey} (h : s.Consistent written)
    (key : StatusKey) : ∃ existing, s.getStatusForUpdate key = .ok existing := by
  simp only [getStatusForUpdate_eq_ok_iff]
  cases hfind : s.findStatus? key with
  | none => exact ⟨none, .inl ⟨rfl, rfl⟩⟩
  | some row =>
      obtain ⟨record, hread⟩ :=
        h.readable row (List.mem_of_find?_eq_some hfind) (findStatus?_isLive hfind)
      exact ⟨some record,
        .inr ⟨row, record, rfl, StatusRecord.ofRowForUpdate_of_ofRow hread, rfl⟩⟩

/-! ## Listings -/

theorem exists_mapM_ok {α β ε : Type} {f : α → Except ε β} {items : List α}
    (h : ∀ x ∈ items, ∃ y, f x = .ok y) : ∃ found, items.mapM f = .ok found := by
  induction items with
  | nil => exact ⟨[], rfl⟩
  | cons x items ih =>
      obtain ⟨y, hy⟩ := h x List.mem_cons_self
      obtain ⟨found, hfound⟩ := ih fun z hz => h z (List.mem_cons_of_mem x hz)
      exact ⟨y :: found, by simp [hy, hfound, bind, Except.bind, pure, Except.pure]⟩

/-- The adapters that wrote about a resource, each once. -/
def adaptersOf (written : List StatusKey) (resource : ResourceRef) : List String :=
  ((written.filter (·.owner = resource)).map (·.adapter)).dedup

theorem mem_adaptersOf {written : List StatusKey} {resource : ResourceRef} {adapter : String} :
    adapter ∈ adaptersOf written resource ↔ StatusKey.of resource adapter ∈ written := by
  simp only [adaptersOf, List.mem_dedup, List.mem_map, List.mem_filter, decide_eq_true_eq]
  constructor
  · rintro ⟨key, ⟨hkey, rfl⟩, rfl⟩
    exact hkey
  · intro hkey
    exact ⟨_, ⟨hkey, rfl⟩, rfl⟩

/-- The live statuses of a live resource are those of the adapters that wrote about it. -/
theorem adapters_perm {s : Store} {written : List StatusKey} (h : s.Consistent written)
    {resource : ResourceRef} (hshows : s.Shows resource) :
    ((s.statuses.filter (·.isAbout resource)).map (·.adapter)).Perm
      ((adaptersOf written resource).map Cell.text) := by
  refine (List.perm_ext_iff_of_nodup ?_ ?_).mpr ?_
  · rw [List.Nodup, List.pairwise_map]
    apply (h.distinct.keys.filter _).imp_of_mem
    intro a b ha hb hnot hadapter
    obtain ⟨htype, howner, hlive⟩ := StatusRow.isAbout_iff.mp (List.mem_filter.mp ha).2
    obtain ⟨htype', howner', hlive'⟩ := StatusRow.isAbout_iff.mp (List.mem_filter.mp hb).2
    exact hnot ⟨hlive, hlive', htype.trans htype'.symm, howner.trans howner'.symm, hadapter⟩
  · exact (List.nodup_dedup _).map fun _ _ htext => Cell.text.inj htext
  · intro cell
    simp only [List.mem_map, List.mem_filter, mem_adaptersOf]
    constructor
    · rintro ⟨r, ⟨hr, habout⟩, rfl⟩
      obtain ⟨key, hkey⟩ := h.distinct.keyed r hr
      have hof := StatusRow.isOf_iff.mpr ⟨hkey, (StatusRow.isAbout_iff.mp habout).2.2⟩
      have howner := (StatusRow.isAbout_iff_owner hof resource).mp habout
      refine ⟨key.adapter, ?_, hkey.2.2.symm⟩
      rw [← howner]
      exact ((h.kept key).mp ⟨r, hr, hof⟩).1
    · rintro ⟨adapter, hwritten, rfl⟩
      obtain ⟨r, hr, hof⟩ := (h.kept (.of resource adapter)).mpr ⟨hwritten, hshows⟩
      exact ⟨r, ⟨hr, (StatusRow.isAbout_iff_owner hof resource).mpr rfl⟩,
        (StatusRow.isOf_iff.mp hof).1.2.2⟩

/-- The statuses of a live resource can be listed, and are as many as adapters wrote about it. -/
theorem listStatuses {s : Store} {written : List StatusKey} (h : s.Consistent written)
    {resource : ResourceRef} (hshows : s.Shows resource) {cancel : Cancellation}
    (hcancel : cancel ≠ .before) (page : PageRequest) :
    ∃ p, s.listStatuses cancel resource page = .ok p ∧
      p.total = (adaptersOf written resource).length := by
  have hstart := Cancellation.checkStart_of_ne hcancel
  let rows := (s.statuses.filter (·.isAbout resource)).mergeSort fun a b =>
    Cell.precedes a.adapter b.adapter
  have hread : ∀ r ∈ page.slice rows, ∃ record, StatusRecord.ofRow r = .ok record := by
    intro r hr
    have hmem := List.mem_mergeSort.mp (List.mem_of_mem_drop (List.mem_of_mem_take hr))
    obtain ⟨hrow, habout⟩ := List.mem_filter.mp hmem
    exact h.readable r hrow (StatusRow.isAbout_iff.mp habout).2.2
  obtain ⟨found, hfound⟩ := exists_mapM_ok hread
  refine ⟨{ items := found, page := page.page, pageSize := page.pageSize, total := rows.length },
    ?_, ?_⟩
  · simp only [Store.listStatuses, hstart, Page.of, bind, Except.bind]
    rw [hfound]
    rfl
  · have hperm := (h.adapters_perm hshows).length_eq
    simpa [rows] using hperm

end Consistent
end Store
end StatusBoard

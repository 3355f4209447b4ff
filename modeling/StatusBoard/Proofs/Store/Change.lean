import Mathlib.Logic.Relation
import StatusBoard.Proofs.Store.Consistency
set_option autoImplicit false

/-!
# Store: changes

Whatever is done with the store is made of five changes.  Four of them touch only rows that are
live, or add one with an identity that no row has.  So none of them can bring back a resource that
is lost, or do anything to its rows.
-/

namespace StatusBoard

/-! ## The rows of a resource -/

/-- The row is that of a resource, live or not. -/
def ResourceRow.belongsTo (r : ResourceRow) (resource : ResourceRef) : Bool :=
  r.kind = .text resource.kind && r.id = .text resource.id

/-- The row is about a resource, and is live or not. -/
def StatusRow.belongsTo (r : StatusRow) (resource : ResourceRef) : Bool :=
  r.resourceType = .text resource.kind && r.resourceId = .text resource.id

theorem ResourceRow.isOf_eq (r : ResourceRow) (resource : ResourceRef) :
    r.isOf resource = (r.belongsTo resource && r.isLive) := rfl

theorem StatusRow.isAbout_eq (r : StatusRow) (resource : ResourceRef) :
    r.isAbout resource = (r.belongsTo resource && r.isLive) := rfl

/-- Items that are told apart from others are the same after a change that leaves them alone and
mistakes no other for one of them. -/
theorem filter_map_eq {α : Type} {p : α → Bool} {f : α → α} {items : List α}
    (htold : ∀ a, p (f a) = p a) (hsame : ∀ a ∈ items, p a = true → f a = a) :
    (items.map f).filter p = items.filter p := by
  rw [List.filter_map, Function.comp_def]
  simp only [htold]
  refine (List.map_congr_left ?_).trans (List.map_id _)
  intro a ha
  exact hsame a (List.mem_filter.mp ha).1 (List.mem_filter.mp ha).2

namespace Store

/-- The rows of a resource, those that were deleted among them. -/
def rowsOf (s : Store) (resource : ResourceRef) : List ResourceRow :=
  s.resources.filter (·.belongsTo resource)

/-- The rows about a resource, those that were deleted among them. -/
def statusRowsOf (s : Store) (resource : ResourceRef) : List StatusRow :=
  s.statuses.filter (·.belongsTo resource)

/-! ## Changes -/

/-- What can be done with the store at once. -/
inductive Change (s : Store) : Store → Prop where
  | create {row : ResourceRow} {id : Uuid} (named : row.id = .text id.toText)
      (free : s.isTaken row = false) : Change s (s.withResource row)
  | delete (resource : ResourceRef) (now : Instant) : Change s (s.markDeleted resource now)
  | condition (resource : ResourceRef) (raw : String) (now : Instant) :
      Change s (s.setConditions resource raw now)
  | add {key : StatusKey} {row : StatusRow} (owner : s.Shows key.owner)
      (keyed : row.isOf key = true) : Change s (s.withStatus row)
  | overwrite (id : Uuid) (w : StatusWrite) : Change s (s.overwritten id w)

/-- What can be done with the store by and by. -/
abbrev Changes : Store → Store → Prop :=
  Relation.ReflTransGen Change

/-- What joins an upsert is a row of its key. -/
theorem IsJoined.changes {contention : Nat → Contention} {key : StatusKey} {s base : Store}
    (h : IsJoined contention key s base) (hcontests : Contests contention key)
    (howner : s.Shows key.owner) : Changes s base ∧ base.Shows key.owner := by
  cases h with
  | alone => exact ⟨.refl, howner⟩
  | joined lost absent => exact ⟨.single (.add howner (hcontests _ _ _ lost)), howner⟩

/-- What an upsert writes is one change. -/
theorem Writes.change {planner : Planner} {key : StatusKey} {id : Uuid} {base draft : Store}
    {inserted : Bool} (h : Writes planner key id base draft inserted)
    (howner : base.Shows key.owner) : base.Change draft := by
  cases h with
  | insert plan fresh absent => exact .add howner (isOf_toRow _ id key)
  | update plan found read numbered => exact .overwrite _ _

/-! ## Identities -/

/-- All identities of resources are in the written form. -/
def IsNamed (s : Store) : Prop :=
  ∀ r ∈ s.resources, ∃ id : Uuid, r.id = .text id.toText

theorem IsNamed.change {s t : Store} (h : s.IsNamed) (hchange : s.Change t) : t.IsNamed := by
  cases hchange with
  | @create row id named free =>
      intro r hr
      rcases List.mem_append.mp hr with hr | hr
      · exact h r hr
      · rw [List.mem_singleton.mp hr]
        exact ⟨id, named⟩
  | delete resource now =>
      intro r' hr'
      obtain ⟨r, hr, rfl⟩ := List.mem_map.mp hr'
      exact (h r hr).imp fun _ hid => (Consistent.id_without resource now r).trans hid
  | condition resource raw now =>
      intro r' hr'
      obtain ⟨r, hr, rfl⟩ := List.mem_map.mp hr'
      exact (h r hr).imp fun _ hid => (Consistent.conditioned_same resource raw now r).1.trans hid
  | add owner keyed => exact h
  | overwrite id w => exact h

/-- Nothing that is done with a store damages identities. -/
theorem IsNamed.changes {s t : Store} (h : s.IsNamed) (hchanges : Changes s t) : t.IsNamed := by
  induction hchanges with
  | refl => exact h
  | tail _ hchange ih => exact ih.change hchange

/-- A row that is read has the identity of what is read. -/
theorem IsNamed.id_eq {s : Store} (h : s.IsNamed) {r : ResourceRow} (hr : r ∈ s.resources)
    {x : Resource} (hread : Resource.ofRow r = .ok x) : r.id = .text x.id.toText := by
  obtain ⟨id, hid⟩ := h r hr
  rw [hid, Uuid.eq_of_read hid (Resource.ofRow_eq_ok_iff.mp hread).id]

/-! ## What is lost -/

/-- A resource that was there is there no longer, and nothing is said about it. -/
structure Lost (s : Store) (resource : ResourceRef) : Prop where
  known : ∃ r ∈ s.resources, r.id = .text resource.id
  hidden : ¬ s.Shows resource
  silent : ∀ r ∈ s.statuses, r.isAbout resource = false

/-- What is deleted is lost. -/
theorem lost_markDeleted {s : Store} {resource : ResourceRef} (h : s.Shows resource)
    (now : Instant) : (s.markDeleted resource now).Lost resource where
  known := by
    obtain ⟨r, hr, hof⟩ := h
    exact ⟨_, List.mem_map_of_mem hr,
      (Consistent.id_without resource now r).trans (ResourceRow.isOf_iff.mp hof).2.1⟩
  hidden := by
    intro hshows
    exact (Consistent.shows_markDeleted.mp hshows).2 rfl
  silent := by
    intro r' hr'
    obtain ⟨r, hr, rfl⟩ := List.mem_map.mp hr'
    change (Consistent.withoutOwner resource now r).isAbout resource = false
    by_contra habout
    rw [Bool.not_eq_false] at habout
    have hlive := (StatusRow.isAbout_iff.mp habout).2.2
    rw [Consistent.withoutOwner_of_isLive hlive, Consistent.isLive_withoutOwner hlive] at habout
    cases habout

namespace Lost

variable {s t : Store} {resource : ResourceRef}

/-- No row of a lost resource is live. -/
theorem isLive_row (h : s.Lost resource) {r : ResourceRow} (hr : r ∈ s.resources)
    (hrow : r.belongsTo resource = true) : r.isLive = false := by
  by_contra hlive
  rw [Bool.not_eq_false] at hlive
  exact h.hidden ⟨r, hr, by rw [ResourceRow.isOf_eq, hrow, hlive, Bool.and_true]⟩

/-- No row about a lost resource is live. -/
theorem isLive_statusRow (h : s.Lost resource) {r : StatusRow} (hr : r ∈ s.statuses)
    (hrow : r.belongsTo resource = true) : r.isLive = false := by
  have habout := h.silent r hr
  rwa [StatusRow.isAbout_eq, hrow, Bool.true_and] at habout

/-- A change leaves what is lost lost. -/
theorem change (h : s.Lost resource) (hchange : s.Change t) : t.Lost resource := by
  cases hchange with
  | @create row id named free =>
      obtain ⟨r, hr, hid⟩ := h.known
      refine ⟨⟨r, List.mem_append_left _ hr, hid⟩, ?_, h.silent⟩
      intro hshows
      obtain hshows | hof := Consistent.shows_withResource.mp hshows
      · exact h.hidden hshows
      · have hsame := (ResourceRow.isOf_iff.mp hof).2.1
        exact (Consistent.not_isTaken_iff.mp free r hr).1 (hid.trans hsame.symm)
  | delete other now =>
      obtain ⟨r, hr, hid⟩ := h.known
      refine ⟨⟨_, List.mem_map_of_mem hr, (Consistent.id_without other now r).trans hid⟩, ?_, ?_⟩
      · intro hshows
        exact h.hidden (Consistent.shows_markDeleted.mp hshows).1
      · intro r' hr'
        obtain ⟨r, hr, rfl⟩ := List.mem_map.mp hr'
        change (Consistent.withoutOwner other now r).isAbout resource = false
        by_contra habout
        rw [Bool.not_eq_false] at habout
        rw [Consistent.withoutOwner_of_isLive (StatusRow.isAbout_iff.mp habout).2.2,
          h.silent r hr] at habout
        cases habout
  | condition other raw now =>
      obtain ⟨r, hr, hid⟩ := h.known
      refine ⟨⟨_, List.mem_map_of_mem hr,
        (Consistent.conditioned_same other raw now r).1.trans hid⟩, ?_, h.silent⟩
      rw [Consistent.shows_setConditions]
      exact h.hidden
  | @add key row owner keyed =>
      refine ⟨h.known, h.hidden, ?_⟩
      intro r hr
      rcases List.mem_append.mp hr with hr | hr
      · exact h.silent r hr
      · rw [List.mem_singleton.mp hr]
        by_contra habout
        rw [Bool.not_eq_false, StatusRow.isAbout_iff_owner keyed] at habout
        exact h.hidden (habout ▸ owner)
  | overwrite id w =>
      refine ⟨h.known, h.hidden, ?_⟩
      intro r' hr'
      obtain ⟨r, hr, rfl⟩ := List.mem_map.mp hr'
      have habout := h.silent r hr
      cases isNumbered id r <;> exact habout

/-- A change leaves the rows of what is lost alone. -/
theorem rowsOf_change (h : s.Lost resource) (hchange : s.Change t) :
    t.rowsOf resource = s.rowsOf resource := by
  cases hchange with
  | @create row id named free =>
      obtain ⟨r, hr, hid⟩ := h.known
      have hother : row.belongsTo resource = false := by
        by_contra hrow
        simp only [ResourceRow.belongsTo, Bool.not_eq_false, Bool.and_eq_true,
          decide_eq_true_eq] at hrow
        exact (Consistent.not_isTaken_iff.mp free r hr).1 (hid.trans hrow.2.symm)
      simp [rowsOf, withResource, List.filter_append, hother]
  | delete other now =>
      refine filter_map_eq (f := Consistent.without other now) ?_ ?_
      · intro r
        unfold Consistent.without
        cases r.isOf other <;> rfl
      · intro r hr hrow
        simp [Consistent.without, ResourceRow.isOf_eq, h.isLive_row hr hrow]
  | condition other raw now =>
      refine filter_map_eq (f := Consistent.conditioned other raw now) ?_ ?_
      · intro r
        unfold Consistent.conditioned
        cases r.isOf other <;> rfl
      · intro r hr hrow
        simp [Consistent.conditioned, ResourceRow.isOf_eq, h.isLive_row hr hrow]
  | add owner keyed => rfl
  | overwrite id w => rfl

/-- A change leaves the rows about what is lost alone. -/
theorem statusRowsOf_change (h : s.Lost resource) (hchange : s.Change t) :
    t.statusRowsOf resource = s.statusRowsOf resource := by
  cases hchange with
  | create named free => rfl
  | delete other now =>
      refine filter_map_eq (f := Consistent.withoutOwner other now) ?_ ?_
      · intro r
        unfold Consistent.withoutOwner
        cases r.isAbout other <;> rfl
      · intro r hr hrow
        simp [Consistent.withoutOwner, StatusRow.isAbout_eq, h.isLive_statusRow hr hrow]
  | condition other raw now => rfl
  | @add key row owner keyed =>
      have hother : row.belongsTo resource = false := by
        by_contra hrow
        rw [Bool.not_eq_false] at hrow
        have habout : row.isAbout resource = true := by
          rw [StatusRow.isAbout_eq, hrow, (StatusRow.isOf_iff.mp keyed).2, Bool.and_true]
        rw [StatusRow.isAbout_iff_owner keyed] at habout
        exact h.hidden (habout ▸ owner)
      simp [statusRowsOf, withStatus, List.filter_append, hother]
  | overwrite id w =>
      refine filter_map_eq ?_ ?_
      · intro r
        cases isNumbered id r <;> rfl
      · intro r hr hrow
        simp [isNumbered, h.isLive_statusRow hr hrow]

/-- Whatever is done with a store, what is lost stays lost, and its rows are what they were. -/
theorem changes (h : s.Lost resource) (hchanges : Changes s t) :
    t.Lost resource ∧ t.rowsOf resource = s.rowsOf resource ∧
      t.statusRowsOf resource = s.statusRowsOf resource := by
  induction hchanges with
  | refl => exact ⟨h, rfl, rfl⟩
  | tail _ hchange ih =>
      obtain ⟨hlost, hrows, hstatuses⟩ := ih
      exact ⟨hlost.change hchange, (hlost.rowsOf_change hchange).trans hrows,
        (hlost.statusRowsOf_change hchange).trans hstatuses⟩

end Lost
end Store
end StatusBoard

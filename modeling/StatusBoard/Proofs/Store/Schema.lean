import StatusBoard.Proofs.Store.Contention
set_option autoImplicit false

/-!
# Store: what the schema promises

Cells may be damaged as they like, but the tables hold on to what is unique in them: identities, and
the names and keys of live rows.  Every change of a call keeps that, and so does every edit by hand.
-/

namespace StatusBoard

theorem sameCell_comm (a b : Cell) : sameCell a b = sameCell b a := by
  by_cases h : a = b
  · rw [h]
  · simp [sameCell, h, Ne.symm h]

theorem ResourceRow.sameName_comm (a b : ResourceRow) : a.sameName b = b.sameName a := by
  simp only [sameName, sameCell_comm, Bool.and_comm a.isLive]

theorem StatusRow.sameKey_comm (a b : StatusRow) : a.sameKey b = b.sameKey a := by
  simp only [sameKey, sameCell_comm, Bool.and_comm a.isLive]

/-- Rows of resources as the schema has them: no two with one identity, and no two live ones with
one kind and name. -/
structure ResourceRow.ObeySchema (rows : List ResourceRow) : Prop where
  ids : rows.Pairwise fun a b => sameCell a.id b.id = false
  names : rows.Pairwise fun a b => a.sameName b = false

/-- Both tables are as the schema has them. -/
structure Store.ObeysSchema (s : Store) : Prop where
  resources : ResourceRow.ObeySchema s.resources
  statuses : StatusRow.ObeySchema s.statuses

/-! ## Changes of rows -/

/-- The rows after a change that moves nothing under another identity or name, and brings
nothing back. -/
theorem ResourceRow.ObeySchema.map {rows : List ResourceRow} (h : ObeySchema rows)
    {f : ResourceRow → ResourceRow}
    (hsame : ∀ r, (f r).id = r.id ∧ (f r).kind = r.kind ∧ (f r).name = r.name)
    (hlive : ∀ r, (f r).isLive = true → r.isLive = true) : ObeySchema (rows.map f) := by
  refine ⟨?_, ?_⟩
  · rw [List.pairwise_map]
    simpa only [hsame] using h.ids
  · refine List.pairwise_map.mpr (h.names.imp ?_)
    intro a b hdiffer
    simp only [sameName, hsame, Bool.and_eq_false_iff] at hdiffer ⊢
    grind

/-- The rows after a change that moves nothing under another identity or key, and brings nothing
back. -/
theorem StatusRow.ObeySchema.map {rows : List StatusRow} (h : ObeySchema rows)
    {f : StatusRow → StatusRow}
    (hsame : ∀ r, (f r).id = r.id ∧ (f r).resourceType = r.resourceType ∧
      (f r).resourceId = r.resourceId ∧ (f r).adapter = r.adapter)
    (hlive : ∀ r, (f r).isLive = true → r.isLive = true) : ObeySchema (rows.map f) := by
  refine ⟨?_, ?_⟩
  · rw [List.pairwise_map]
    simpa only [hsame] using h.ids
  · refine List.pairwise_map.mpr (h.keys.imp ?_)
    intro a b hdiffer
    simp only [sameKey, hsame, Bool.and_eq_false_iff] at hdiffer ⊢
    grind

/-- A resource has one live row at most. -/
theorem ResourceRow.ObeySchema.filter_isOf {rows : List ResourceRow} (h : ObeySchema rows)
    {resource : ResourceRef} {old : ResourceRow} (hold : old ∈ rows)
    (hof : old.isOf resource = true) : rows.filter (·.isOf resource) = [old] := by
  refine filter_eq_singleton (h.ids.imp ?_) hold hof
  intro a b hdiffer ha
  by_contra hb
  rw [Bool.not_eq_false] at hb
  rw [(isOf_iff.mp ha).2.1, (isOf_iff.mp hb).2.1] at hdiffer
  simp [sameCell] at hdiffer

/-! ## What calls change -/

namespace Store.ObeysSchema

variable {s t : Store}

theorem empty : ObeysSchema .empty where
  resources := ⟨.nil, .nil⟩
  statuses := ⟨.nil, .nil⟩

theorem withResource (h : s.ObeysSchema) {row : ResourceRow} (hfree : s.isTaken row = false) :
    (s.withResource row).ObeysSchema where
  resources := by
    have hnew := Consistent.not_isTaken_iff.mp hfree
    refine ⟨List.pairwise_append.mpr ⟨h.resources.ids, List.pairwise_singleton _ _, ?_⟩,
      List.pairwise_append.mpr ⟨h.resources.names, List.pairwise_singleton _ _, ?_⟩⟩
    · intro a ha b hb
      rw [List.mem_singleton.mp hb]
      simp [sameCell, (hnew a ha).1]
    · intro a ha b hb
      rw [List.mem_singleton.mp hb, ← Bool.not_eq_true]
      intro hclash
      simp only [ResourceRow.sameName, sameCell, Bool.and_eq_true, decide_eq_true_eq] at hclash
      exact (hnew a ha).2 ⟨hclash.1.1.1, hclash.1.2.2, hclash.2.2⟩
  statuses := h.statuses

theorem setConditions (h : s.ObeysSchema) (resource : ResourceRef) (raw : String) (now : Instant) :
    (s.setConditions resource raw now).ObeysSchema where
  resources := by
    have hsame := Consistent.conditioned_same resource raw now
    exact h.resources.map (fun r => ⟨(hsame r).1, (hsame r).2.1, (hsame r).2.2.1⟩)
      fun r hr => (hsame r).2.2.2.symm.trans hr
  statuses := h.statuses

theorem markDeleted (h : s.ObeysSchema) (resource : ResourceRef) (now : Instant) :
    (s.markDeleted resource now).ObeysSchema where
  resources := by
    refine h.resources.map (f := Consistent.without resource now) (fun r => ?_) fun r hr => ?_
    · unfold Consistent.without
      split <;> exact ⟨rfl, rfl, rfl⟩
    · rw [(Consistent.without_of_isLive hr).1] at hr
      exact hr
  statuses := by
    refine h.statuses.map (f := Consistent.withoutOwner resource now)
      (fun r => ⟨Consistent.id_withoutOwner resource now r, ?_⟩) fun r hr => ?_
    · exact Consistent.cells_withoutOwner resource now r
    · rw [Consistent.withoutOwner_of_isLive hr] at hr
      exact hr

/-- What an upsert writes keeps identities and keys unique. -/
theorem writes (h : s.ObeysSchema) {planner : Planner} {key : StatusKey} {id : Uuid}
    {inserted : Bool} (hwrites : Writes planner key id s t inserted) : t.ObeysSchema := by
  cases hwrites with
  | insert plan fresh absent =>
      refine ⟨h.resources, h.statuses.snoc (isOf_toRow _ id key) (List.find?_eq_none.mp absent) ?_⟩
      intro r hr
      simp [sameCell, StatusWrite.toRow, fresh r hr]
  | @update _ w row previous plan found read numbered =>
      refine ⟨h.resources, h.statuses.map (fun r => ?_) fun r hr => ?_⟩
      · cases isNumbered previous.id r <;> exact ⟨rfl, rfl, rfl, rfl⟩
      · cases hnumbered : isNumbered previous.id r with
        | true =>
            rw [hnumbered] at hr
            exact hr
        | false =>
            rw [hnumbered] at hr
            exact hr

end Store.ObeysSchema

/-! ## What is edited by hand -/

/-- An edit of a row that clashes with no other leaves rows that do not clash. -/
theorem pairwise_editRows {α : Type} {identity : α → Cell} {change : α → Option α}
    {clash : (changed other : α) → Option String} {id : String} {rows rows' : List α} {n : Nat}
    {same : α → α → Bool} (hedit : editRows identity change clash id rows = .ok (rows', n))
    (hcomm : ∀ a b, same a b = same b a)
    (hclash : ∀ changed other, clash changed other = none → same changed other = false)
    (hids : rows.Pairwise fun a b => sameCell (identity a) (identity b) = false)
    (hrows : rows.Pairwise fun a b => same a b = false) :
    rows'.Pairwise fun a b => same a b = false := by
  unfold editRows at hedit
  split at hedit
  · cases hedit
    exact hrows
  · split at hedit
    · cases hedit
    · rename_i changed hchanged
      split at hedit
      · cases hedit
      · rename_i hnone
        cases hedit
        have hother : ∀ r ∈ rows, identity r ≠ .text id → same changed r = false := by
          intro r hr hdiffer
          refine hclash _ _ (List.findSome?_eq_none_iff.mp hnone r (List.mem_filter.mpr ⟨hr, ?_⟩))
          simp [hdiffer]
        refine List.pairwise_map.mpr ((hids.and hrows).imp_of_mem ?_)
        rintro a b ha hb ⟨hdiffer, hsame⟩
        by_cases hida : identity a = .text id <;> by_cases hidb : identity b = .text id
        · rw [hida, hidb] at hdiffer
          simp [sameCell] at hdiffer
        · simpa [hida, hidb] using hother b hb hidb
        · simpa [hida, hidb, hcomm a changed] using hother a ha hida
        · simpa [hida, hidb] using hsame

/-- Rows that are told not to clash do not clash in either way. -/
theorem not_clash_of_none {first second : Bool} {reason reason' : String}
    (h : (if first then some reason else if second then some reason' else none) = none) :
    first = false ∧ second = false := by
  cases first with
  | true => cases h
  | false =>
      cases second with
      | true => cases h
      | false => exact ⟨rfl, rfl⟩

namespace Store.ObeysSchema

variable {s t : Store} {id column : String} {value : Cell} {n : Nat}

theorem editResource (h : s.ObeysSchema) (hedit : s.editResource id column value = .ok (t, n)) :
    t.ObeysSchema := by
  unfold Store.editResource at hedit
  obtain ⟨⟨resources, k⟩, hrows, hedit⟩ := bind_eq_ok_iff.mp hedit
  obtain ⟨-, -, hedit⟩ := bind_eq_ok_iff.mp hedit
  cases hedit
  have hids := pairwise_editRows hrows (fun a b => sameCell_comm a.id b.id)
    (fun a b hnone => (not_clash_of_none hnone).1) h.resources.ids h.resources.ids
  have hnames := pairwise_editRows hrows ResourceRow.sameName_comm
    (fun a b hnone => (not_clash_of_none hnone).2) h.resources.ids h.resources.names
  exact ⟨⟨hids, hnames⟩, h.statuses⟩

theorem editStatus (h : s.ObeysSchema) (hedit : s.editStatus id column value = .ok (t, n)) :
    t.ObeysSchema := by
  unfold Store.editStatus at hedit
  obtain ⟨⟨statuses, k⟩, hrows, hedit⟩ := bind_eq_ok_iff.mp hedit
  obtain ⟨-, -, hedit⟩ := bind_eq_ok_iff.mp hedit
  cases hedit
  have hids := pairwise_editRows hrows (fun a b => sameCell_comm a.id b.id)
    (fun a b hnone => (not_clash_of_none hnone).1) h.statuses.ids h.statuses.ids
  have hkeys := pairwise_editRows hrows StatusRow.sameKey_comm
    (fun a b hnone => (not_clash_of_none hnone).2) h.statuses.ids h.statuses.keys
  exact ⟨h.resources, hids, hkeys⟩

end Store.ObeysSchema
end StatusBoard

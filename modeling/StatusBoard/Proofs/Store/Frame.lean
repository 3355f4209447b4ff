import StatusBoard.Proofs.Store.Schema
set_option autoImplicit false

/-!
# Store: what a change leaves alone

A deletion and a setting of conditions reach the one row that they are meant for, whatever the cells
of the others hold, and a deletion reaches the live statuses of that resource besides.  An
overwriting reaches the row of its key exactly if the identity of that row is in its written form.
-/

namespace StatusBoard

/-! ## One row among others -/

/-- Rows before and after a change of one of them, the only one to be chosen; the others stay what
and where they are. -/
inductive ChangesOne {α : Type} (chosen : α → Bool) (change : α → α → Prop) :
    List α → List α → Prop where
  | at {before after : List α} {old new : α} (isChosen : chosen old = true)
      (alone : ∀ r ∈ before ++ after, chosen r = false) (changed : change old new) :
      ChangesOne chosen change (before ++ old :: after) (before ++ new :: after)

namespace ChangesOne

variable {α : Type} {chosen : α → Bool} {change : α → α → Prop} {rows : List α} {f : α → α}

/-- A function that leaves alone what is not chosen changes the one row that is. -/
theorem of_map {old : α} (honly : rows.filter chosen = [old])
    (hothers : ∀ r ∈ rows, chosen r = false → f r = r) (hchanged : change old (f old)) :
    ChangesOne chosen change rows (rows.map f) := by
  obtain ⟨before, after, rfl, hbefore, hold, hafter⟩ := List.filter_eq_cons_iff.mp honly
  have halone : ∀ r ∈ before ++ after, chosen r = false := by
    intro r hr
    rw [← Bool.not_eq_true]
    rcases List.mem_append.mp hr with hr | hr
    · exact hbefore r hr
    · exact List.filter_eq_nil_iff.mp hafter r hr
  have hsame : ∀ r ∈ before ++ after, f r = r := fun r hr =>
    hothers r (by simp only [List.mem_append, List.mem_cons] at hr ⊢; tauto) (halone r hr)
  have hbeforeSame : before.map f = before := by
    refine (List.map_congr_left fun r hr => ?_).trans (List.map_id _)
    exact hsame r (List.mem_append_left _ hr)
  have hafterSame : after.map f = after := by
    refine (List.map_congr_left fun r hr => ?_).trans (List.map_id _)
    exact hsame r (List.mem_append_right _ hr)
  rw [List.map_append, List.map_cons, hbeforeSame, hafterSame]
  exact .at hold halone hchanged

/-- What is not chosen stays what and where it is. -/
theorem getElem?_eq {rows' : List α} (h : ChangesOne chosen change rows rows') {i : Nat} {r : α}
    (hr : rows[i]? = some r) (hother : chosen r = false) : rows'[i]? = some r := by
  cases h with
  | @«at» before after old new isChosen alone changed =>
      rcases Nat.lt_trichotomy i before.length with hi | rfl | hi
      · rwa [List.getElem?_append_left hi] at hr ⊢
      · rw [List.getElem?_append_right (Nat.le_refl _), Nat.sub_self] at hr
        cases hr
        rw [isChosen] at hother
        cases hother
      · obtain ⟨k, rfl⟩ : ∃ k, i = before.length + (k + 1) := ⟨i - before.length - 1, by omega⟩
        rw [List.getElem?_append_right (by omega), Nat.add_sub_cancel_left,
          List.getElem?_cons_succ] at hr ⊢
        exact hr

/-- A function that changes one row leaves alone what is not chosen. -/
theorem eq_of_map (h : ChangesOne chosen change rows (rows.map f)) {r : α} (hr : r ∈ rows)
    (hother : chosen r = false) : f r = r := by
  obtain ⟨i, hi⟩ := List.mem_iff_getElem?.mp hr
  have hkept := h.getElem?_eq hi hother
  rw [List.getElem?_map, hi, Option.map_some, Option.some.injEq] at hkept
  exact hkept

end ChangesOne

/-! ## What is changed of a row -/

/-- Of a status that is reported again only the report and its time are new. -/
def StatusRow.IsReportedOver (old new : StatusRow) : Prop :=
  ∃ generation conditions data metadata time, new =
    { old with
      observedGeneration := generation, conditions := conditions, data := data,
      metadata := metadata, lastReportTime := time }

/-- Of a resource that is given conditions only these and the time of the update are new. -/
def ResourceRow.IsConditionedOver (old new : ResourceRow) : Prop :=
  ∃ conditions time, new = { old with statusConditions := conditions, updatedTime := time }

/-- Of a resource that is deleted only the time of deletion is new, which it had not before. -/
def ResourceRow.IsMarked (old new : ResourceRow) : Prop :=
  old.deletedTime = .null ∧ ∃ time, time ≠ .null ∧ new = { old with deletedTime := time }

/-- Of a status that is deleted only the time of deletion is new, which it had not before. -/
def StatusRow.IsMarked (old new : StatusRow) : Prop :=
  old.deletedTime = .null ∧ ∃ time, time ≠ .null ∧ new = { old with deletedTime := time }

namespace Store

variable {s : Store}

/-! ## Resources -/

theorem ObeysSchema.resource_alone (h : s.ObeysSchema) {resource : ResourceRef} {row : ResourceRow}
    (hfind : s.findResource? resource = some row) : s.resources.filter (·.isOf resource) = [row] :=
  h.resources.filter_isOf (List.mem_of_find?_eq_some hfind) (findResource?_isOf hfind)

/-- Conditions are set in the one row of their resource. -/
theorem ObeysSchema.changesOne_setConditions (h : s.ObeysSchema) {resource : ResourceRef}
    {row : ResourceRow} (hfind : s.findResource? resource = some row) (raw : String)
    (now : Instant) :
    ChangesOne (·.isOf resource) ResourceRow.IsConditionedOver s.resources
      (s.setConditions resource raw now).resources := by
  refine ChangesOne.of_map (h.resource_alone hfind) (fun r _ hother => if_neg (by simp [hother])) ?_
  rw [if_pos (findResource?_isOf hfind)]
  exact ⟨_, _, rfl⟩

/-- A deletion marks the one row of its resource. -/
theorem ObeysSchema.changesOne_markDeleted (h : s.ObeysSchema) {resource : ResourceRef}
    {row : ResourceRow} (hfind : s.findResource? resource = some row) (now : Instant) :
    ChangesOne (·.isOf resource) ResourceRow.IsMarked s.resources
      (s.markDeleted resource now).resources := by
  have hof := findResource?_isOf hfind
  refine ChangesOne.of_map (h.resource_alone hfind) (fun r _ hother => if_neg (by simp [hother])) ?_
  rw [if_pos hof]
  have hlive := (ResourceRow.isOf_iff.mp hof).2.2
  simp only [ResourceRow.isLive, decide_eq_true_eq] at hlive
  exact ⟨hlive, _, Cell.noConfusion, rfl⟩

/-- A deletion marks the live statuses of its resource and leaves the others alone. -/
theorem forall₂_markDeleted (s : Store) (resource : ResourceRef) (now : Instant) :
    List.Forall₂ (fun old new => if old.isAbout resource then old.IsMarked new else new = old)
      s.statuses (s.markDeleted resource now).statuses := by
  refine List.forall₂_map_right_iff.mpr (List.forall₂_same.mpr fun r _ => ?_)
  by_cases habout : r.isAbout resource = true
  · have hlive := (StatusRow.isAbout_iff.mp habout).2.2
    simp only [StatusRow.isLive, decide_eq_true_eq] at hlive
    rw [if_pos habout, if_pos habout]
    exact ⟨hlive, _, Cell.noConfusion, rfl⟩
  · rw [if_neg habout, if_neg habout]

/-! ## Statuses -/

/-- An overwriting reaches the row of its key, and no other, exactly if it goes by the identity of
that row, or finds everything as it would write it. -/
theorem ObeysSchema.changesOne_overwritten_iff (h : s.ObeysSchema) {key : StatusKey}
    {row : StatusRow} (hfind : s.findStatus? key = some row) {id : Uuid} {w : StatusWrite} :
    ChangesOne (·.isOf key) StatusRow.IsReportedOver s.statuses (s.overwritten id w).statuses ↔
      isNumbered id row = true ∨ s.overwritten id w = s := by
  have hrow := List.mem_of_find?_eq_some hfind
  have hof := findStatus?_isOf hfind
  have honly := h.statuses.filter_isOf hrow hof
  constructor
  · intro hchanges
    refine or_iff_not_imp_left.mpr fun hmissed => ?_
    by_contra hchanged
    obtain ⟨other, hother, hnumbered, hdiffers⟩ := overwritten_ne_iff.mp hchanged
    cases hkey : other.isOf key with
    | true =>
        have hmem : other ∈ s.statuses.filter (·.isOf key) := List.mem_filter.mpr ⟨hother, hkey⟩
        rw [honly] at hmem
        rw [List.mem_singleton.mp hmem] at hnumbered
        exact hmissed hnumbered
    | false =>
        have hsame := hchanges.eq_of_map hother hkey
        rw [if_pos hnumbered] at hsame
        exact hdiffers hsame
  · rintro (hnumbered | hsame)
    · refine ChangesOne.of_map honly (fun r hr hother => if_neg ?_) ?_
      · intro hhit
        rw [h.statuses.eq_of_isNumbered hr hrow hhit hnumbered, hof] at hother
        cases hother
      · rw [if_pos hnumbered]
        exact ⟨_, _, _, _, _, rfl⟩
    · have hrefl : ChangesOne (·.isOf key) StatusRow.IsReportedOver s.statuses
          (s.statuses.map fun r => r) :=
        ChangesOne.of_map honly (fun r _ _ => rfl) ⟨_, _, _, _, _, rfl⟩
      rw [hsame]
      rwa [List.map_id'] at hrefl

end Store
end StatusBoard

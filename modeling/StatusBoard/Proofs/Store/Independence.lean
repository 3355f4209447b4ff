import StatusBoard.Proofs.Store.Effect
set_option autoImplicit false

/-!
# Store: keys that have nothing to do with each other

What is done for one key is not seen at another, unless live rows of both are read to have one
identity.  Stores that look alike at a key go on doing so while the same is done to both.
-/

namespace StatusBoard

/-! ## Rows of a key -/

namespace StatusRow

/-- The row has the cells of a key, live or not. -/
def hasKey (r : StatusRow) (key : StatusKey) : Bool :=
  r.resourceType = .text key.resourceType && r.resourceId = .text key.resourceId &&
    r.adapter = .text key.adapter

theorem isOf_eq (r : StatusRow) (key : StatusKey) : r.isOf key = (r.hasKey key && r.isLive) := by
  simp only [isOf, isAbout, hasKey, StatusKey.owner, Bool.and_assoc, Bool.and_comm r.isLive]
  rfl

theorem hasKey_toRow {w : StatusWrite} {id : Uuid} {key other : StatusKey} :
    (w.toRow id key).hasKey other = true ↔ key = other := by
  cases key
  cases other
  simp [hasKey, StatusWrite.toRow, and_assoc]

theorem hasKey_renumber (f : Uuid → Uuid) (r : StatusRow) (key : StatusKey) :
    (r.renumber f).hasKey key = r.hasKey key := by
  obtain ⟨cell, hcell⟩ := r.exists_renumber f
  rw [hcell]
  rfl

end StatusRow

/-- The rows of a key, live or not. -/
def Store.rowsFor (s : Store) (key : StatusKey) : List StatusRow :=
  s.statuses.filter (·.hasKey key)

namespace Store

variable {s : Store} {key : StatusKey} {r : StatusRow}

theorem mem_rowsFor : r ∈ s.rowsFor key ↔ r ∈ s.statuses ∧ r.hasKey key = true :=
  List.mem_filter

/-- The row that a key has is its first live one. -/
theorem findStatus?_eq (s : Store) (key : StatusKey) :
    s.findStatus? key = (s.rowsFor key).find? (·.isLive) := by
  simp [findStatus?, rowsFor, List.find?_filter, StatusRow.isOf_eq]

theorem mem_rowsFor_of_findStatus? (h : s.findStatus? key = some r) :
    r ∈ s.rowsFor key ∧ r.isLive = true := by
  rw [findStatus?_eq] at h
  exact ⟨List.mem_of_find?_eq_some h, List.find?_some h⟩

end Store

/-! ## Effects row by row -/

namespace Effect

/-- What becomes of a row. -/
def touch : Effect → StatusRow → StatusRow
  | changed id w, r => if Store.isNumbered id r then w.applyTo r else r
  | nothing, r | added _, r => r

/-- The rows that are added. -/
def rows : Effect → List StatusRow
  | added row => [row]
  | nothing | changed .. => []

theorem resources_on (e : Effect) (s : Store) : (e.on s).resources = s.resources := by
  cases e <;> rfl

theorem statuses_on (e : Effect) (s : Store) :
    (e.on s).statuses = s.statuses.map e.touch ++ e.rows := by
  cases e with
  | nothing =>
      change s.statuses = s.statuses.map id ++ []
      rw [List.map_id, List.append_nil]
  | added row =>
      change s.statuses ++ [row] = s.statuses.map id ++ [row]
      rw [List.map_id]
  | changed id w =>
      rw [rows, List.append_nil]
      rfl

/-- A row keeps its identity, its key, and whether it is live. -/
theorem exists_touch (e : Effect) (r : StatusRow) :
    (e.touch r).id = r.id ∧ (∀ key, (e.touch r).hasKey key = r.hasKey key) ∧
      (e.touch r).isLive = r.isLive := by
  cases e with
  | nothing | added _ => exact ⟨rfl, fun _ => rfl, rfl⟩
  | changed id w =>
      simp only [touch]
      split <;> exact ⟨rfl, fun _ => rfl, rfl⟩

theorem number?_touch (e : Effect) (r : StatusRow) : (e.touch r).number? = r.number? := by
  simp only [StatusRow.number?, (e.exists_touch r).1]

theorem hasKey_touch (e : Effect) (r : StatusRow) (key : StatusKey) :
    (e.touch r).hasKey key = r.hasKey key :=
  (e.exists_touch r).2.1 key

theorem isLive_touch (e : Effect) (r : StatusRow) : (e.touch r).isLive = r.isLive :=
  (e.exists_touch r).2.2

theorem isNumbered_touch (e : Effect) (id : Uuid) (r : StatusRow) :
    Store.isNumbered id (e.touch r) = Store.isNumbered id r := by
  simp only [Store.isNumbered, (e.exists_touch r).1, e.isLive_touch r]

theorem touch_changed_of_not {id : Uuid} {w : StatusWrite} {r : StatusRow}
    (h : Store.isNumbered id r = false) : (changed id w).touch r = r :=
  if_neg (by simp [h])

theorem isSpelt_touch {f : Uuid → Uuid} {r : StatusRow} (h : r.IsSpelt f) (e : Effect) :
    (e.touch r).IsSpelt f := by
  intro id hid
  rw [number?_touch] at hid
  rw [(e.exists_touch r).1]
  exact h id hid

theorem hasNumberOf_touch (e : Effect) (s : Store) (r : StatusRow) :
    s.hasNumberOf (e.touch r) = s.hasNumberOf r := by
  simp only [Store.hasNumberOf, e.number?_touch]

theorem rowsFor_on (e : Effect) (s : Store) (key : StatusKey) :
    (e.on s).rowsFor key = (s.rowsFor key).map e.touch ++ e.rows.filter (·.hasKey key) := by
  rw [Store.rowsFor, statuses_on, List.filter_append, List.filter_map, Store.rowsFor]
  congr 2
  exact List.filter_congr fun r _ => e.hasKey_touch r key

theorem hasNumberOf_on (e : Effect) (s : Store) (r : StatusRow) :
    (e.on s).hasNumberOf r =
      (s.hasNumberOf r || (r.number?.any fun id => e.rows.any (Store.isNumbered id))) := by
  unfold Store.hasNumberOf
  cases r.number? with
  | none => rfl
  | some id =>
      simp only [statuses_on, List.any_append, List.any_map, Option.any_some]
      congr 2
      funext other
      exact e.isNumbered_touch id other

variable {f : Uuid → Uuid}

theorem touch_renumber (hf : Function.Injective f) (e : Effect) {r : StatusRow}
    (h : r.IsSpelt f) : (e.renumber f).touch (r.renumber f) = (e.touch r).renumber f := by
  cases e with
  | nothing | added _ => rfl
  | changed id w =>
      simp only [renumber, touch, StatusRow.isNumbered_renumber hf h]
      split
      · rw [StatusRow.renumber_applyTo]
      · rfl

theorem rows_renumber (e : Effect) : (e.renumber f).rows = e.rows.map (·.renumber f) := by
  cases e <;> rfl

/-- What is done to rows with other identities is what is done to the rows, but for these. -/
theorem rowsFor_renumber (hf : Function.Injective f) (e : Effect) {s t : Store} {key : StatusKey}
    (hspelt : ∀ r ∈ s.rowsFor key, r.IsSpelt f)
    (hrows : t.rowsFor key = (s.rowsFor key).map (·.renumber f)) :
    ((e.renumber f).on t).rowsFor key = ((e.on s).rowsFor key).map (·.renumber f) := by
  rw [rowsFor_on, rowsFor_on, hrows, rows_renumber, List.filter_map, List.map_append, List.map_map,
    List.map_map]
  congr 1
  · exact List.map_congr_left fun r hr => e.touch_renumber hf (hspelt r hr)
  · refine congrArg _ (List.filter_congr fun r _ => ?_)
    exact r.hasKey_renumber f key

end Effect

/-! ## What holds of identities -/

namespace Store

/-- No row is read to have the identity. -/
def IsUnused (s : Store) (id : Uuid) : Prop :=
  ∀ r ∈ s.statuses, r.number? ≠ some id

instance (s : Store) (id : Uuid) : Decidable (s.IsUnused id) :=
  inferInstanceAs (Decidable (∀ r ∈ s.statuses, r.number? ≠ some id))

/-- No live rows of the two keys are read to have one identity. -/
def AreApart (s : Store) (key other : StatusKey) : Prop :=
  ∀ r ∈ s.rowsFor key, r.isLive = true → ∀ r' ∈ s.rowsFor other, r'.isLive = true →
    ∀ id, r.number? = some id → r'.number? ≠ some id

/-- Other identities are meant for none of the rows. -/
def IsFixedBy (s : Store) (f : Uuid → Uuid) : Prop :=
  ∀ r ∈ s.statuses, ∀ id, r.number? = some id → f id = id

variable {s t : Store} {key other : StatusKey} {id : Uuid} {e : Effect} {f : Uuid → Uuid}

theorem IsUnused.id_ne (h : s.IsUnused id) : ∀ r ∈ s.statuses, r.id ≠ .text id.toText :=
  fun r hr hid => h r hr (StatusRow.number?_of_id hid)

theorem AreApart.symm (h : s.AreApart key other) : s.AreApart other key :=
  fun r' hr' hlive' r hr hlive id hnumber' hnumber => h r hr hlive r' hr' hlive' id hnumber hnumber'

theorem IsUnused.renumber (h : s.IsUnused id) (hf : Function.Injective f) (hs : s.IsFixedBy f) :
    s.IsUnused (f id) := by
  intro r hr hnumber
  have hsame : f id = id := hf (hs r hr (f id) hnumber)
  exact h r hr (hsame ▸ hnumber)

/-- A row after an effect is one from before, or it is the one with the new identity. -/
theorem MayDo.mem_statuses (h : s.MayDo key id e) {r : StatusRow} (hr : r ∈ (e.on s).statuses) :
    (∃ old ∈ s.statuses, r = e.touch old) ∨ ∃ w : StatusWrite, r = w.toRow id key := by
  rw [e.statuses_on] at hr
  obtain hr | hr := List.mem_append.mp hr
  · obtain ⟨old, hold, rfl⟩ := List.mem_map.mp hr
    exact .inl ⟨old, hold, rfl⟩
  · cases h with
    | nothing | changed _ _ _ => cases hr
    | added w absent => exact .inr ⟨w, List.mem_singleton.mp hr⟩

theorem MayDo.isSpelt_rowsFor {done : StatusKey} (hdo : s.MayDo done id e)
    (h : ∀ r ∈ s.rowsFor key, r.IsSpelt f) : ∀ r ∈ (e.on s).rowsFor key, r.IsSpelt f := by
  intro r hr
  obtain ⟨hr, hkey⟩ := mem_rowsFor.mp hr
  obtain ⟨old, hold, rfl⟩ | ⟨w, rfl⟩ := hdo.mem_statuses hr
  · rw [e.hasKey_touch] at hkey
    exact Effect.isSpelt_touch (h old (mem_rowsFor.mpr ⟨hold, hkey⟩)) e
  · intro number hnumber
    cases (StatusRow.number?_of_id rfl).symm.trans hnumber
    exact .inr rfl

theorem IsUnused.on {fresh : Uuid} (h : s.IsUnused fresh) (hdo : s.MayDo key id e)
    (hne : fresh ≠ id) : (e.on s).IsUnused fresh := by
  intro r hr hnumber
  obtain ⟨old, hold, rfl⟩ | ⟨w, rfl⟩ := hdo.mem_statuses hr
  · exact h old hold ((e.number?_touch old).symm.trans hnumber)
  · cases (StatusRow.number?_of_id rfl).symm.trans hnumber
    exact hne rfl

/-- Keys that are apart stay so, whatever is done for any key. -/
theorem AreApart.on {done : StatusKey} (h : s.AreApart key other) (hkeys : key ≠ other)
    (hunused : s.IsUnused id) (hdo : s.MayDo done id e) : (e.on s).AreApart key other := by
  intro r hr hlive r' hr' hlive' number hnumber hnumber'
  obtain ⟨hr, hkey⟩ := mem_rowsFor.mp hr
  obtain ⟨hr', hkey'⟩ := mem_rowsFor.mp hr'
  obtain ⟨old, hold, rfl⟩ | ⟨w, rfl⟩ := hdo.mem_statuses hr
  · rw [e.hasKey_touch] at hkey
    rw [e.isLive_touch] at hlive
    rw [e.number?_touch] at hnumber
    obtain ⟨old', hold', rfl⟩ | ⟨w, rfl⟩ := hdo.mem_statuses hr'
    · rw [e.hasKey_touch] at hkey'
      rw [e.isLive_touch] at hlive'
      rw [e.number?_touch] at hnumber'
      exact h old (mem_rowsFor.mpr ⟨hold, hkey⟩) hlive old' (mem_rowsFor.mpr ⟨hold', hkey'⟩) hlive'
        number hnumber hnumber'
    · cases (StatusRow.number?_of_id rfl).symm.trans hnumber'
      exact hunused old hold hnumber
  · cases (StatusRow.number?_of_id rfl).symm.trans hnumber
    obtain ⟨old', hold', rfl⟩ | ⟨w', rfl⟩ := hdo.mem_statuses hr'
    · rw [e.number?_touch] at hnumber'
      exact hunused old' hold' hnumber'
    · exact hkeys ((StatusRow.hasKey_toRow.mp hkey).symm.trans (StatusRow.hasKey_toRow.mp hkey'))

/-! ## What another key does not see -/

/-- Nothing that an upsert of the key looks at, and none of its rows, is another one. -/
structure Unmoved (key : StatusKey) (s t : Store) : Prop where
  resources : t.resources = s.resources
  rows : t.rowsFor key = s.rowsFor key
  numbers : ∀ r ∈ s.rowsFor key, r.isLive = true → t.hasNumberOf r = s.hasNumberOf r

/-- What is done for a key adds no row of another one. -/
theorem MayDo.filter_rows (hdo : s.MayDo other id e) (hkeys : key ≠ other) :
    e.rows.filter (·.hasKey key) = [] := by
  cases hdo with
  | nothing | changed _ _ _ => rfl
  | added w absent =>
      refine List.filter_eq_nil_iff.mpr fun r hr hkey => ?_
      rw [List.mem_singleton.mp hr] at hkey
      exact hkeys (StatusRow.hasKey_toRow.mp hkey).symm

/-- What is done for one key leaves another one alone, if they are apart and the new identity is
that of no row. -/
theorem MayDo.unmoved (hdo : s.MayDo other id e) (hkeys : key ≠ other) (hunused : s.IsUnused id)
    (hapart : s.AreApart key other) : Unmoved key s (e.on s) := by
  cases hdo with
  | nothing => exact ⟨rfl, rfl, fun _ _ _ => rfl⟩
  | added w absent =>
      refine ⟨rfl, ?_, ?_⟩
      · rw [Effect.rowsFor_on, (MayDo.added w absent).filter_rows hkeys, List.append_nil]
        exact List.map_id' _
      · intro r hr _
        rw [Effect.hasNumberOf_on]
        cases hnumber : r.number? with
        | none => simp
        | some number =>
            have hother : isNumbered number (w.toRow id other) = false := by
              rw [Bool.eq_false_iff]
              intro h
              cases (StatusRow.number?_of_id rfl).symm.trans (StatusRow.number?_of_isNumbered h)
              exact hunused r (mem_rowsFor.mp hr).1 hnumber
            simp [Effect.rows, hother]
  | @changed w row number found read =>
      obtain ⟨hrow, hlive⟩ := mem_rowsFor_of_findStatus? found
      refine ⟨rfl, ?_, ?_⟩
      · rw [Effect.rowsFor_on, Effect.rows, List.filter_nil, List.append_nil]
        refine (List.map_congr_left (g := fun r => r) fun r hr => if_neg ?_).trans
          (List.map_id' _)
        intro h
        have hrlive : r.isLive = true := by
          simp only [isNumbered, Bool.and_eq_true] at h
          exact h.2
        exact hapart r hr hrlive row hrow hlive number (StatusRow.number?_of_isNumbered h) read
      · intro r _ _
        rw [Effect.hasNumberOf_on]
        cases r.number? <;> simp [Effect.rows]

theorem Unmoved.findStatus?_eq (h : Unmoved key s t) : t.findStatus? key = s.findStatus? key := by
  rw [Store.findStatus?_eq, h.rows, Store.findStatus?_eq]

theorem Unmoved.mayDo (h : Unmoved key s t) (hdo : t.MayDo key id e) : s.MayDo key id e := by
  cases hdo with
  | nothing => exact .nothing
  | added w absent => exact .added w (h.findStatus?_eq ▸ absent)
  | changed w found read => exact .changed w (h.findStatus?_eq ▸ found) read

/-! ## Orders -/

/-- What is done does nothing to a row with an identity that was that of no row. -/
theorem MayDo.touch_toRow {fresh : Uuid} (hdo : s.MayDo key id e) (hunused : s.IsUnused fresh)
    (w : StatusWrite) (other : StatusKey) :
    e.touch (w.toRow fresh other) = w.toRow fresh other := by
  cases hdo with
  | nothing | added _ _ => rfl
  | changed w' found read =>
      refine if_neg fun h => ?_
      cases (StatusRow.number?_of_id rfl).symm.trans (StatusRow.number?_of_isNumbered h)
      exact hunused _ (mem_rowsFor.mp (mem_rowsFor_of_findStatus? found).1).1 read

theorem MayDo.map_touch_rows {fresh : Uuid} {e' : Effect} (hdo : s.MayDo key id e)
    (hdo' : s.MayDo other fresh e') (hunused : s.IsUnused fresh) (p : StatusRow → Bool) :
    (e'.rows.filter p).map e.touch = e'.rows.filter p := by
  refine (List.map_congr_left (g := fun r => r) fun r hr => ?_).trans (List.map_id' _)
  cases hdo' with
  | nothing | changed _ _ _ => cases hr
  | added w absent =>
      rw [List.mem_singleton.mp (List.mem_filter.mp hr).1]
      exact hdo.touch_toRow hunused w other

/-- Of the rows of two keys that are apart, none is overwritten for both. -/
theorem MayDo.touch_comm {id' : Uuid} {e' : Effect} (hdo : s.MayDo key id e)
    (hdo' : s.MayDo other id' e') (hapart : s.AreApart key other) (r : StatusRow) :
    e.touch (e'.touch r) = e'.touch (e.touch r) := by
  cases hdo with
  | nothing | added _ _ => rfl
  | @changed w row number found read =>
      cases hdo' with
      | nothing | added _ _ => rfl
      | @changed w' row' number' found' read' =>
          obtain ⟨hrow, hlive⟩ := mem_rowsFor_of_findStatus? found
          obtain ⟨hrow', hlive'⟩ := mem_rowsFor_of_findStatus? found'
          have hne : ∀ r, isNumbered number r = true → isNumbered number' r = false := by
            intro r hr
            rw [Bool.eq_false_iff]
            intro hr'
            cases (StatusRow.number?_of_isNumbered hr).symm.trans
              (StatusRow.number?_of_isNumbered hr')
            exact hapart row hrow hlive row' hrow' hlive' number read read'
          cases hr : isNumbered number r with
          | true =>
              have hafter := (Effect.isNumbered_touch (.changed number w) number' r).trans (hne r hr)
              rw [Effect.touch_changed_of_not (hne r hr), Effect.touch_changed_of_not hafter]
          | false =>
              have hafter := (Effect.isNumbered_touch (.changed number' w') number r).trans hr
              rw [Effect.touch_changed_of_not hr, Effect.touch_changed_of_not hafter]

/-- What is done for two keys that are apart can be done in either order. -/
theorem MayDo.rowsFor_comm {id' : Uuid} {e' : Effect} (hdo : s.MayDo key id e)
    (hdo' : s.MayDo other id' e') (hkeys : key ≠ other) (hapart : s.AreApart key other)
    (hunused : s.IsUnused id) (hunused' : s.IsUnused id') (third : StatusKey) :
    (e.on (e'.on s)).rowsFor third = (e'.on (e.on s)).rowsFor third := by
  simp only [Effect.rowsFor_on, List.map_append, List.map_map, hdo.map_touch_rows hdo' hunused',
    hdo'.map_touch_rows hdo hunused, List.append_assoc]
  congr 1
  · exact List.map_congr_left fun r _ => hdo.touch_comm hdo' hapart r
  · by_cases hthird : third = key
    · rw [hdo'.filter_rows (hthird ▸ hkeys), List.nil_append, List.append_nil]
    · rw [hdo.filter_rows hthird, List.nil_append, List.append_nil]

/-! ## Stores that look alike -/

/-- Two stores look alike at a key if the second has what the first has, with the identities that are
meant for its rows. -/
structure Alike (f : Uuid → Uuid) (key : StatusKey) (s t : Store) : Prop where
  resources : t.resources = s.resources
  rows : t.rowsFor key = (s.rowsFor key).map (·.renumber f)
  spelt : ∀ r ∈ s.rowsFor key, r.IsSpelt f
  numbers : ∀ r ∈ s.rowsFor key, r.isLive = true →
    t.hasNumberOf (r.renumber f) = s.hasNumberOf r

/-- A store looks like itself if other identities are meant for none of its rows. -/
theorem IsFixedBy.alike (h : s.IsFixedBy f) (key : StatusKey) : Alike f key s s := by
  have hsame : ∀ r ∈ s.rowsFor key, r.renumber f = r := fun r hr =>
    StatusRow.renumber_of_fixed (h r (mem_rowsFor.mp hr).1)
  refine ⟨rfl, ?_, ?_, ?_⟩
  · exact ((List.map_congr_left hsame).trans (List.map_id _)).symm
  · exact fun r hr id hid => .inl (h r (mem_rowsFor.mp hr).1 id hid)
  · intro r hr _
    rw [hsame r hr]

namespace Alike

theorem left {s' : Store} (h : Alike f key s t) (hmoved : Unmoved key s s') :
    Alike f key s' t where
  resources := h.resources.trans hmoved.resources.symm
  rows := by rw [h.rows, hmoved.rows]
  spelt := fun r hr => h.spelt r (hmoved.rows ▸ hr)
  numbers := by
    intro r hr hlive
    rw [hmoved.rows] at hr
    rw [h.numbers r hr hlive, hmoved.numbers r hr hlive]

theorem right {t' : Store} (h : Alike f key s t) (hmoved : Unmoved key t t') :
    Alike f key s t' where
  resources := hmoved.resources.trans h.resources
  rows := by rw [hmoved.rows, h.rows]
  spelt := h.spelt
  numbers := by
    intro r hr hlive
    have hmem : r.renumber f ∈ t.rowsFor key := h.rows ▸ List.mem_map_of_mem hr
    rw [hmoved.numbers _ hmem ((r.isLive_renumber f).trans hlive), h.numbers r hr hlive]

theorem findStatus?_eq (h : Alike f key s t) :
    t.findStatus? key = (s.findStatus? key).map (·.renumber f) := by
  rw [Store.findStatus?_eq, h.rows, List.find?_map, Store.findStatus?_eq]
  congr 2
  funext r
  exact r.isLive_renumber f

/-- An upsert of the key looks at the same in both. -/
theorem sight_eq (h : Alike f key s t) : t.sight key = (s.sight key).renumber f := by
  unfold sight Sight.renumber findResource?
  rw [h.resources, h.findStatus?_eq]
  cases hfind : s.findStatus? key with
  | none => rfl
  | some r =>
      obtain ⟨hr, hlive⟩ := mem_rowsFor_of_findStatus? hfind
      simp only [Option.map_some, h.numbers r hr hlive]

theorem mayDo (h : Alike f key s t) (hdo : s.MayDo key id e) :
    t.MayDo key (f id) (e.renumber f) := by
  cases hdo with
  | nothing => exact .nothing
  | added w absent =>
      rw [Effect.renumber, StatusRow.renumber_toRow]
      exact .added w (by rw [h.findStatus?_eq, absent, Option.map_none])
  | changed w found read =>
      refine .changed w (by rw [h.findStatus?_eq, found, Option.map_some]) ?_
      rw [StatusRow.number?_renumber, read, Option.map_some]

/-- Stores in which the same is done for the key look alike at it after that. -/
theorem on (h : Alike f key s t) (hf : Function.Injective f) (hdo : s.MayDo key id e) :
    Alike f key (e.on s) ((e.renumber f).on t) where
  resources := by rw [Effect.resources_on, Effect.resources_on, h.resources]
  rows := e.rowsFor_renumber hf h.spelt h.rows
  spelt := hdo.isSpelt_rowsFor h.spelt
  numbers := by
    intro r hr hlive
    rw [Effect.rowsFor_on] at hr
    obtain hr | hr := List.mem_append.mp hr
    · obtain ⟨old, hold, rfl⟩ := List.mem_map.mp hr
      have hsame : t.hasNumberOf ((e.touch old).renumber f) = s.hasNumberOf (e.touch old) := by
        rw [e.isLive_touch] at hlive
        rw [← e.touch_renumber hf (h.spelt old hold), Effect.hasNumberOf_touch,
          e.hasNumberOf_touch, h.numbers old hold hlive]
      rw [Effect.hasNumberOf_on, Effect.hasNumberOf_on, hsame]
      cases hdo with
      | nothing | changed _ _ _ => simp [Effect.renumber, Effect.rows]
      | added w absent =>
          rw [Store.findStatus?_eq, List.find?_eq_none] at absent
          exact absurd hlive (absent old hold)
    · cases hdo with
      | nothing | changed _ _ _ => cases hr
      | added w absent =>
          -- A row with its identity in the written form is there itself.
          rw [List.mem_singleton.mp (List.mem_filter.mp hr).1] at hlive ⊢
          rw [Effect.hasNumberOf_on, Effect.hasNumberOf_on, StatusRow.renumber_toRow,
            StatusRow.number?_of_id rfl, StatusRow.number?_of_id rfl, Effect.renumber,
            StatusRow.renumber_toRow]
          simp [Effect.rows, isNumbered, StatusWrite.toRow, StatusRow.isLive]

end Alike
end Store
end StatusBoard

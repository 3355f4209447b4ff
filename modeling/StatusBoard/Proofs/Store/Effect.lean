import StatusBoard.Proofs.Store.Statuses
set_option autoImplicit false

/-!
# Store: what an upsert sees, and what it does

An upsert looks at the owner of its key, at the row that the key has, and at whether a live row has
the identity that this row is read to have; it looks at nothing else.  By that it is decided what
the upsert comes to and what it does to the table: nothing, or a row of the key is added, or the rows
of an identity are overwritten.  Which identities there are makes no difference, as long as rows
have them in their written form.
-/

namespace StatusBoard

/-- The order of mapping and chaining is no matter. -/
theorem map_bind {ε α β γ : Type} (x : Except ε α) (g : α → Except ε β) (h : β → γ) :
    (x >>= g).map h = x >>= fun a => (g a).map h := by
  cases x <;> rfl

/-! ## Identities of rows -/

namespace StatusRow

/-- The identity that a row is read to have, in whatever form it stands there. -/
def number? (r : StatusRow) : Option Uuid :=
  match r.id with
  | .text s => Uuid.parse? s
  | _ => none

/-- The row with another identity, in its written form, if another one is meant for it. -/
def renumber (f : Uuid → Uuid) (r : StatusRow) : StatusRow :=
  match r.number? with
  | some id => if f id = id then r else { r with id := .text (f id).toText }
  | none => r

/-- Another identity is meant for the row only if it has its own in the written form. -/
def IsSpelt (f : Uuid → Uuid) (r : StatusRow) : Prop :=
  ∀ id, r.number? = some id → f id = id ∨ r.id = .text id.toText

@[simp] theorem number?_of_id {r : StatusRow} {id : Uuid} (h : r.id = .text id.toText) :
    r.number? = some id := by
  simp [number?, h]

theorem number?_of_isNumbered {r : StatusRow} {id : Uuid} (h : Store.isNumbered id r = true) :
    r.number? = some id := by
  simp only [Store.isNumbered, Bool.and_eq_true, decide_eq_true_eq] at h
  exact number?_of_id h.1

theorem Says.number? {r : StatusRow} {record : StatusRecord} (h : r.Says record) :
    r.number? = some record.id := by
  obtain ⟨raw, hraw, hparse⟩ := h.id
  simp [StatusRow.number?, hraw, hparse]

variable (f : Uuid → Uuid)

/-- Only the identity of a row is changed. -/
theorem exists_renumber (r : StatusRow) : ∃ cell, r.renumber f = { r with id := cell } := by
  unfold renumber
  split
  · split
    · exact ⟨r.id, rfl⟩
    · exact ⟨_, rfl⟩
  · exact ⟨r.id, rfl⟩

theorem isLive_renumber (r : StatusRow) : (r.renumber f).isLive = r.isLive := by
  obtain ⟨cell, hcell⟩ := r.exists_renumber f
  rw [hcell]
  rfl

variable {f}

theorem renumber_of_fixed {r : StatusRow} (h : ∀ id, r.number? = some id → f id = id) :
    r.renumber f = r := by
  unfold renumber
  split
  · rename_i id hid
    rw [if_pos (h id hid)]
  · rfl

theorem renumber_of_id {r : StatusRow} {id : Uuid} (h : r.id = .text id.toText) :
    r.renumber f = { r with id := .text (f id).toText } := by
  simp only [renumber, number?_of_id h]
  split
  · rename_i hfixed
    rw [hfixed, ← h]
  · rfl

theorem renumber_toRow (w : StatusWrite) (id : Uuid) (key : StatusKey) :
    (w.toRow id key).renumber f = w.toRow (f id) key :=
  renumber_of_id rfl

theorem renumber_applyTo (w : StatusWrite) (r : StatusRow) :
    (w.applyTo r).renumber f = w.applyTo (r.renumber f) := by
  have hnumber : (w.applyTo r).number? = r.number? := rfl
  unfold renumber
  rw [hnumber]
  split
  · split <;> rfl
  · rfl

/-- What a row that is renumbered has for an identity. -/
theorem number?_renumber {r : StatusRow} : (r.renumber f).number? = r.number?.map f := by
  unfold renumber
  split
  · rename_i id hid
    split
    · rename_i hfixed
      rw [hid, Option.map_some, hfixed]
    · rw [number?_of_id rfl, hid, Option.map_some]
  · rename_i hnone
    rw [hnone, Option.map_none]

/-- A row has an identity exactly if it has the one that is meant for it. -/
theorem isNumbered_renumber (hf : Function.Injective f) {r : StatusRow} (h : r.IsSpelt f)
    (id : Uuid) : Store.isNumbered (f id) (r.renumber f) = Store.isNumbered id r := by
  have hiff : (r.renumber f).id = .text (f id).toText ↔ r.id = .text id.toText := by
    constructor
    · intro hid
      have hnumber := number?_of_id hid
      rw [number?_renumber, Option.map_eq_some_iff] at hnumber
      obtain ⟨own, hown, heq⟩ := hnumber
      cases hf heq
      obtain hfixed | hspelt := h id hown
      · have hsame : r.renumber f = r := by
          refine renumber_of_fixed fun other hother => ?_
          cases hown.symm.trans hother
          exact hfixed
        rw [hsame, hfixed] at hid
        exact hid
      · exact hspelt
    · intro hid
      rw [renumber_of_id hid]
  simp only [Store.isNumbered, hiff, isLive_renumber]

end StatusRow

/-! ## Records and outcomes -/

/-- The record with the identity that is meant for it. -/
def StatusRecord.renumber (f : Uuid → Uuid) (record : StatusRecord) : StatusRecord :=
  { record with id := f record.id }

/-- The outcome with the identity that is meant for it. -/
def UpsertOutcome.renumber (f : Uuid → Uuid) : UpsertOutcome → UpsertOutcome
  | inserted record => inserted (record.renumber f)
  | updated record => updated (record.renumber f)
  | skipped => skipped

namespace StatusRecord

variable {f : Uuid → Uuid} {r : StatusRow}

theorem columns_of_id {raw : String} (hid : r.id = .text raw) (other : String) :
    StatusColumns.ofRow { r with id := .text other } =
      (StatusColumns.ofRow r).map fun c => { c with id := other } := by
  simp only [StatusColumns.ofRow, hid, map_bind, StatusColumns.textAt]
  rfl

theorem record_of_id {c : StatusColumns} {id other : Uuid} (hid : Uuid.parse? c.id = some id)
    (data : Except StoreError (Option Json.Value))
    (metadata : Except StoreError (Option ExecutionMetadata)) :
    StatusColumns.record { c with id := other.toText } data metadata =
      (c.record data metadata).map fun record => { record with id := other } := by
  simp only [StatusColumns.record, hid, Uuid.parse?_toText, pure_bind, map_bind]
  rfl

theorem parse?_id {c : StatusColumns} {id : Uuid} (hid : r.id = .text id.toText)
    (hcolumns : StatusColumns.ofRow r = .ok c) : Uuid.parse? c.id = some id := by
  have hc := (StatusColumns.ofRow_eq_ok_iff.mp hcolumns).1
  rw [← Cell.text.inj (hid.symm.trans hc), Uuid.parse?_toText]

/-- A reading that takes nothing but the identity from the cell of the identity reads a row with
another one as it reads the row, but for the identity. -/
theorem read_renumber {read : StatusRow → Except StoreError StatusRecord}
    (hmeant : ∀ record, read r = .ok record → r.Says record)
    (hother : ∀ id other : Uuid, r.id = .text id.toText →
      read { r with id := .text other.toText } =
        (read r).map fun record => { record with id := other })
    (h : r.IsSpelt f) : read (r.renumber f) = (read r).map (renumber f) := by
  by_cases hfixed : ∀ id, r.number? = some id → f id = id
  · rw [StatusRow.renumber_of_fixed hfixed]
    cases hread : read r with
    | error e => rfl
    | ok record =>
        rw [Except.map, renumber, hfixed _ (hmeant record hread).number?]
  · obtain ⟨id, hid⟩ := Classical.not_forall.mp hfixed
    obtain ⟨hnumber, hmoved⟩ := Classical.not_imp.mp hid
    have hspelt := (h id hnumber).resolve_left hmoved
    rw [StatusRow.renumber_of_id hspelt, hother id (f id) hspelt]
    cases hread : read r with
    | error e => rfl
    | ok record =>
        cases hnumber.symm.trans (hmeant record hread).number?
        rfl

theorem ofRow_renumber (h : r.IsSpelt f) : ofRow (r.renumber f) = (ofRow r).map (renumber f) := by
  refine read_renumber (fun record => says_of_ofRow) (fun id other hid => ?_) h
  rw [ofRow, columns_of_id hid, ofRow]
  cases hcolumns : StatusColumns.ofRow r with
  | error e => rfl
  | ok c =>
      simp only [bind, Except.bind]
      exact record_of_id (parse?_id hid hcolumns) c.dataOf c.metadataOf

theorem ofRowForUpdate_renumber (h : r.IsSpelt f) :
    ofRowForUpdate (r.renumber f) = (ofRowForUpdate r).map (renumber f) := by
  refine read_renumber (fun record => says_of_ofRowForUpdate) (fun id other hid => ?_) h
  rw [ofRowForUpdate, columns_of_id hid, ofRowForUpdate]
  cases hcolumns : StatusColumns.ofRow r with
  | error e => rfl
  | ok c =>
      simp only [bind, Except.bind]
      exact record_of_id (parse?_id hid hcolumns) (.ok (ofRowForUpdate.tolerated c.dataOf))
        (.ok (ofRowForUpdate.tolerated c.metadataOf))

end StatusRecord

/-! ## Sights and effects -/

/-- What an upsert looks at: whether the owner of its key is live, the row that the key has, and
whether a live row has the identity that this row is read to have. -/
structure Sight where
  isOwned : Bool
  found : Option (StatusRow × Bool)

/-- What an upsert does to the table of statuses. -/
inductive Effect where
  | nothing
  | added (row : StatusRow)
  | changed (id : Uuid) (w : StatusWrite)

namespace Effect

/-- The store after an effect. -/
def on (s : Store) : Effect → Store
  | nothing => s
  | added row => s.withStatus row
  | changed id w => s.overwritten id w

/-- The effect with the identities that are meant for its rows. -/
def renumber (f : Uuid → Uuid) : Effect → Effect
  | nothing => nothing
  | added row => added (row.renumber f)
  | changed id w => changed (f id) w

end Effect

namespace Store

/-- A live row has the identity that a row is read to have. -/
def hasNumberOf (s : Store) (r : StatusRow) : Bool :=
  match r.number? with
  | some id => s.statuses.any (isNumbered id)
  | none => false

/-- What an upsert of a key looks at. -/
def sight (s : Store) (key : StatusKey) : Sight where
  isOwned := (s.findResource? key.owner).isSome
  found := (s.findStatus? key).map fun r => (r, s.hasNumberOf r)

end Store

namespace Sight

/-- What an upsert does that has found no row. -/
def insert (cancel : Cancellation) (key : StatusKey) (id : Uuid) (planner : Planner) :
    Except StoreError (Effect × UpsertOutcome) :=
  match (planner [] none).plan with
  | .skip => .ok (.nothing, .skipped)
  | .write w => do
    let record ← StatusRecord.ofRow (w.toRow id key)
    cancel.checkEnd (planner [] none).cancels
    return (.added (w.toRow id key), .inserted record)

/-- What an upsert does that has found a row and read it. -/
def update (cancel : Cancellation) (planner : Planner) (row : StatusRow) (isThere : Bool)
    (previous : StatusRecord) : Except StoreError (Effect × UpsertOutcome) :=
  match (planner [] (some previous)).plan with
  | .skip => .ok (.nothing, .skipped)
  | .write w =>
    if isThere then do
      let record ←
        StatusRecord.ofRow (if Store.isNumbered previous.id row then w.applyTo row else row)
      cancel.checkEnd (planner [] (some previous)).cancels
      return (.changed previous.id w, .updated record)
    else .error (.notFound (.statusRow previous.id))

/-- What an upsert does and what it comes to, by what it looks at. -/
def upsert (sight : Sight) (cancel : Cancellation) (key : StatusKey) (id : Uuid)
    (planner : Planner) : Except StoreError (Effect × UpsertOutcome) := do
  cancel.checkStart
  if sight.isOwned then
    match sight.found with
    | none => insert cancel key id planner
    | some (row, isThere) => update cancel planner row isThere (← StatusRecord.ofRowForUpdate row)
  else .error (.notFound (.resource key.owner))

end Sight

namespace Store

variable {s : Store} {key : StatusKey} {id : Uuid} (cancel : Cancellation) (planner : Planner)

/-- The end of an upsert that has written, given the row that the key has then. -/
theorem endUpsert_of_find {draft : Store} {row : StatusRow}
    (hfind : draft.findStatus? key = some row) (calls : List (Option StatusRecord))
    (cancelled inserted : Bool) :
    s.endUpsert cancel key ⟨calls, cancelled, .ok (.written draft inserted)⟩ = do
      let record ← StatusRecord.ofRow row
      cancel.checkEnd cancelled
      return (draft, writtenOutcome inserted record) := by
  cases hread : StatusRecord.ofRow row <;>
    simp [endUpsert, getStatus, hfind, hread, Cancellation.checkStart, writtenOutcome, bind,
      Except.bind, pure, Except.pure]

/-- The upsert of a key that has no row. -/
theorem endUpsert_of_absent (hfresh : ∀ r ∈ s.statuses, r.id ≠ .text id.toText)
    (habsent : s.findStatus? key = none) (left : Nat) :
    s.endUpsert cancel key (runPlan key id planner (fun _ => .clear) left s [] false none) =
      (Sight.insert cancel key id planner).map fun p => (p.1.on s, p.2) := by
  unfold runPlan Sight.insert
  cases hplan : (planner [] none).plan with
  | skip => simp [hplan, endUpsert, Effect.on, bind, Except.bind, pure, Except.pure, Except.map]
  | write w =>
      have hinsert : s.insertStatus (w.toRow id key) = .ok (s.withStatus (w.toRow id key)) :=
        insertStatus_eq_ok_iff.mpr ⟨hfresh, habsent, rfl⟩
      simp only [hplan, tryInsert, hinsert, Bool.false_or, map_bind,
        endUpsert_of_find cancel (findStatus?_withStatus habsent)]
      rfl

/-- The upsert of a key that has a row. -/
theorem endUpsert_of_row {row : StatusRow} {previous : StatusRecord}
    (hfind : s.findStatus? key = some row)
    (hread : StatusRecord.ofRowForUpdate row = .ok previous) (left : Nat) :
    s.endUpsert cancel key
        (runPlan key id planner (fun _ => .clear) left s [] false (some previous)) =
      (Sight.update cancel planner row (s.hasNumberOf row) previous).map
        fun p => (p.1.on s, p.2) := by
  have hthere : s.hasNumberOf row = s.statuses.any (isNumbered previous.id) := by
    rw [hasNumberOf, (StatusRecord.says_of_ofRowForUpdate hread).number?]
  unfold runPlan Sight.update
  cases hplan : (planner [] (some previous)).plan with
  | skip => simp [hplan, endUpsert, Effect.on, bind, Except.bind, pure, Except.pure, Except.map]
  | write w =>
      rw [hthere]
      cases hany : s.statuses.any (isNumbered previous.id) with
      | false =>
          have hupdate : s.updateStatus previous.id w =
              .error (.notFound (.statusRow previous.id)) := by
            change (if s.statuses.any (isNumbered previous.id) then _ else _) = _
            rw [hany]
            rfl
          simp only [hplan, hupdate]
          rfl
      | true =>
          have hupdate : s.updateStatus previous.id w = .ok (s.overwritten previous.id w) :=
            updateStatus_eq_ok_iff.mpr ⟨hany, rfl⟩
          have hfind' : (s.overwritten previous.id w).findStatus? key =
              some (if isNumbered previous.id row then w.applyTo row else row) := by
            rw [findStatus?_overwritten, hfind, Option.map_some]
          simp only [hplan, hupdate, Bool.false_or]
          refine (endUpsert_of_find cancel hfind' _ _ _).trans ?_
          simp only [if_true, map_bind]
          rfl

/-- An upsert that meets no other writer, and has a fresh identity, does what it does by what it
looks at. -/
theorem upsertStatus_eq (hfresh : ∀ r ∈ s.statuses, r.id ≠ .text id.toText) :
    (s.upsertStatus cancel key id planner fun _ => .clear).toAnswer =
      s.commit (((s.sight key).upsert cancel key id planner).map fun p => (p.1.on s, p.2)) := by
  unfold upsertStatus startUpsert Sight.upsert sight
  cases hstart : cancel.checkStart with
  | error e => rfl
  | ok started =>
      cases howner : s.findResource? key.owner with
      | none => rfl
      | some owner =>
          unfold getStatusForUpdate
          cases hfind : s.findStatus? key with
          | none => exact congrArg s.commit (endUpsert_of_absent cancel planner hfresh hfind _)
          | some row =>
              cases hread : StatusRecord.ofRowForUpdate row with
              | error e => simp [hread, bind, Except.bind, Except.map]
              | ok previous =>
                  have hend := @endUpsert_of_row s key id cancel planner row previous hfind hread
                    (attempts - 1)
                  simp [hread, bind, Except.bind, hend, pure, Except.pure]

end Store

/-! ## Other identities -/

namespace Sight

variable {f : Uuid → Uuid}

/-- What is looked at, with the identity that is meant for the row. -/
def renumber (f : Uuid → Uuid) (sight : Sight) : Sight :=
  { sight with found := sight.found.map fun p => (p.1.renumber f, p.2) }

theorem insert_renumber (cancel : Cancellation) (key : StatusKey) (id : Uuid) (planner : Planner) :
    insert cancel key (f id) planner =
      (insert cancel key id planner).map fun p => (p.1.renumber f, p.2.renumber f) := by
  unfold insert
  cases hplan : (planner [] none).plan with
  | skip => rfl
  | write w =>
      have hread := StatusRecord.ofRow_renumber (f := f) (r := w.toRow id key)
        fun own hown => .inr (by cases (StatusRow.number?_of_id rfl).symm.trans hown; rfl)
      rw [StatusRow.renumber_toRow] at hread
      simp only [hread, map_bind]
      cases StatusRecord.ofRow (w.toRow id key) with
      | error e => rfl
      | ok record =>
          simp only [Except.map, bind, Except.bind, pure, Except.pure, Effect.renumber,
            UpsertOutcome.renumber, StatusRow.renumber_toRow]

theorem update_renumber (hf : Function.Injective f) (cancel : Cancellation) {planner : Planner}
    (hplanner : ∀ record, planner [] (some (record.renumber f)) = planner [] (some record))
    {row : StatusRow} (hspelt : row.IsSpelt f) {isThere : Bool}
    {previous : StatusRecord} (hmissing : isThere = false → f previous.id = previous.id) :
    update cancel planner (row.renumber f) isThere (previous.renumber f) =
      (update cancel planner row isThere previous).map
        fun p => (p.1.renumber f, p.2.renumber f) := by
  unfold update
  rw [hplanner]
  cases hplan : (planner [] (some previous)).plan with
  | skip => rfl
  | write w =>
      have hrow : (if Store.isNumbered (f previous.id) (row.renumber f) then
          w.applyTo (row.renumber f) else row.renumber f) =
          (if Store.isNumbered previous.id row then w.applyTo row else row).renumber f := by
        rw [StatusRow.isNumbered_renumber hf hspelt]
        split
        · rw [StatusRow.renumber_applyTo]
        · rfl
      have hread := StatusRecord.ofRow_renumber (f := f)
        (r := if Store.isNumbered previous.id row then w.applyTo row else row) (by
          split
          · exact hspelt
          · exact hspelt)
      cases isThere with
      | false =>
          have hsame : (previous.renumber f).id = previous.id := hmissing rfl
          simp only [hsame, Bool.false_eq_true, if_false]
          rfl
      | true =>
          have hsame : (previous.renumber f).id = f previous.id := rfl
          simp only [if_true, hsame, hrow, hread, map_bind]
          cases StatusRecord.ofRow
              (if Store.isNumbered previous.id row then w.applyTo row else row) with
          | error e => rfl
          | ok record =>
              simp only [Except.map, bind, Except.bind, pure, Except.pure, Effect.renumber,
                UpsertOutcome.renumber]

/-- If other identities are meant for the row and for the row that may be added, an upsert does the
same and comes to the same, but for these identities. -/
theorem upsert_renumber (hf : Function.Injective f) {sight : Sight} (cancel : Cancellation)
    (key : StatusKey) (id : Uuid) {planner : Planner}
    (hplanner : ∀ record, planner [] (some (record.renumber f)) = planner [] (some record))
    (hspelt : ∀ row isThere, sight.found = some (row, isThere) → row.IsSpelt f ∧
      (isThere = false → ∀ id, row.number? = some id → f id = id)) :
    (sight.renumber f).upsert cancel key (f id) planner =
      (sight.upsert cancel key id planner).map fun p => (p.1.renumber f, p.2.renumber f) := by
  obtain ⟨isOwned, found⟩ := sight
  unfold upsert
  cases cancel.checkStart with
  | error e => rfl
  | ok started =>
      cases isOwned with
      | false => rfl
      | true =>
          cases found with
          | none => exact insert_renumber cancel key id planner
          | some p =>
              obtain ⟨row, isThere⟩ := p
              obtain ⟨hrow, hmissing⟩ := hspelt row isThere rfl
              simp only [renumber, Option.map_some, StatusRecord.ofRowForUpdate_renumber hrow]
              cases hread : StatusRecord.ofRowForUpdate row with
              | error e => rfl
              | ok previous =>
                  exact update_renumber hf cancel hplanner hrow fun hnot =>
                    hmissing hnot _ (StatusRecord.says_of_ofRowForUpdate hread).number?

end Sight

/-! ## What an upsert may do -/

/-- An upsert does nothing, or adds a row where it has found none, or overwrites the rows of the
identity of the row that it has found. -/
theorem Sight.cases_of_upsert {sight : Sight} {cancel : Cancellation} {key : StatusKey} {id : Uuid}
    {planner : Planner} {e : Effect} {outcome : UpsertOutcome}
    (h : sight.upsert cancel key id planner = .ok (e, outcome)) :
    e = .nothing ∨ (sight.found = none ∧ ∃ w : StatusWrite, e = .added (w.toRow id key)) ∨
      ∃ row isThere number w, sight.found = some (row, isThere) ∧ row.number? = some number ∧
        e = .changed number w := by
  obtain ⟨isOwned, found⟩ := sight
  obtain ⟨-, -, h⟩ := bind_eq_ok_iff.mp h
  cases isOwned with
  | false => cases h
  | true =>
      cases found with
      | none =>
          simp only [if_true, insert] at h
          split at h
          · cases h
            exact .inl rfl
          · obtain ⟨record, -, h⟩ := bind_eq_ok_iff.mp h
            obtain ⟨-, -, h⟩ := bind_eq_ok_iff.mp h
            cases h
            exact .inr (.inl ⟨rfl, _, rfl⟩)
      | some p =>
          obtain ⟨previous, hread, h⟩ := bind_eq_ok_iff.mp h
          have hnumber := (StatusRecord.says_of_ofRowForUpdate hread).number?
          unfold update at h
          split at h
          · cases h
            exact .inl rfl
          · split at h
            · obtain ⟨record, -, h⟩ := bind_eq_ok_iff.mp h
              obtain ⟨-, -, h⟩ := bind_eq_ok_iff.mp h
              cases h
              exact .inr (.inr ⟨_, _, _, _, rfl, hnumber, rfl⟩)
            · cases h

/-- An upsert of a key may add a row of the key, if there is none, and overwrite the rows of the
identity that the row of the key is read to have. -/
inductive Store.MayDo (s : Store) (key : StatusKey) (id : Uuid) : Effect → Prop where
  | nothing : MayDo s key id .nothing
  | added (w : StatusWrite) (absent : s.findStatus? key = none) :
      MayDo s key id (.added (w.toRow id key))
  | changed (w : StatusWrite) {row : StatusRow} {number : Uuid}
      (found : s.findStatus? key = some row) (read : row.number? = some number) :
      MayDo s key id (.changed number w)

namespace Store

variable {s t : Store} {key : StatusKey} {id : Uuid} {cancel : Cancellation} {planner : Planner}

theorem mayDo_of_upsert {e : Effect} {outcome : UpsertOutcome}
    (h : (s.sight key).upsert cancel key id planner = .ok (e, outcome)) : s.MayDo key id e := by
  obtain rfl | ⟨hfound, w, rfl⟩ | ⟨row, isThere, number, w, hfound, hnumber, rfl⟩ :=
    Sight.cases_of_upsert h
  · exact .nothing
  · exact .added w (Option.map_eq_none_iff.mp hfound)
  · obtain ⟨r, hfind, heq⟩ := Option.map_eq_some_iff.mp hfound
    cases heq
    exact .changed w hfind hnumber

/-- Two upserts of a key that look at the same, but for the identity of the row, do the same and come
to the same, but for that and for the identities that they add rows with. -/
theorem exists_effect {f : Uuid → Uuid} (hf : Function.Injective f) (cancel : Cancellation)
    (id : Uuid) {planner : Planner}
    (hsight : t.sight key = (s.sight key).renumber f)
    (hspelt : ∀ row, s.findStatus? key = some row → row.IsSpelt f)
    (hfresh : ∀ r ∈ s.statuses, r.id ≠ .text id.toText)
    (hfresh' : ∀ r ∈ t.statuses, r.id ≠ .text (f id).toText)
    (hplanner : ∀ record, planner [] (some (record.renumber f)) = planner [] (some record)) :
    ∃ e result, s.MayDo key id e ∧
      (s.upsertStatus cancel key id planner fun _ => .clear).toAnswer = ⟨e.on s, result⟩ ∧
      (t.upsertStatus cancel key (f id) planner fun _ => .clear).toAnswer =
        ⟨(e.renumber f).on t, result.map (·.renumber f)⟩ := by
  have hthere : ∀ row isThere, (s.sight key).found = some (row, isThere) → row.IsSpelt f ∧
      (isThere = false → ∀ number, row.number? = some number → f number = number) := by
    intro row isThere hfound
    obtain ⟨r, hfind, heq⟩ := Option.map_eq_some_iff.mp hfound
    cases heq
    refine ⟨hspelt row hfind, fun hnot number hnumber => ?_⟩
    -- A row with its identity in the written form is there itself.
    refine (hspelt row hfind number hnumber).resolve_right fun hid => ?_
    have hself : isNumbered number row = true := by
      simp [isNumbered, hid, findStatus?_isLive hfind]
    have hany : s.statuses.any (isNumbered number) = true :=
      List.any_eq_true.mpr ⟨row, List.mem_of_find?_eq_some hfind, hself⟩
    rw [hasNumberOf, hnumber] at hnot
    exact absurd (hany.symm.trans hnot) (by decide)
  rw [upsertStatus_eq cancel planner hfresh, upsertStatus_eq cancel planner hfresh', hsight,
    Sight.upsert_renumber hf cancel key id hplanner hthere]
  cases hupsert : (s.sight key).upsert cancel key id planner with
  | error e => exact ⟨.nothing, .error e, .nothing, rfl, rfl⟩
  | ok p =>
      obtain ⟨e, outcome⟩ := p
      exact ⟨e, .ok outcome, mayDo_of_upsert hupsert, rfl, rfl⟩

end Store
end StatusBoard

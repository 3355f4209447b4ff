import StatusBoard.Proofs.Store.Decoding
import StatusBoard.Store.Statuses
set_option autoImplicit false

/-!
# Store: what an upsert can come to

One lemma for each step of an upsert, and one for the whole: either the store stays as it
is, or a row of the key was added, or the rows of an identity were overwritten.  What was
written had been read back.
-/

namespace StatusBoard

/-- An operation starts unless it was cancelled before. -/
theorem Cancellation.checkStart_of_ne {c : Cancellation} (h : c ≠ .before) :
    c.checkStart = .ok () := by
  cases c with
  | before => exact absurd rfl h
  | never | underway => rfl

/-- An operation ends well only if nobody cancelled it. -/
theorem Cancellation.never_of_checkEnd {c : Cancellation} {byItself : Bool}
    (h : c.checkEnd byItself = .ok ()) : c = .never := by
  cases c with
  | never => rfl
  | before | underway => cases byItself <;> cases h

namespace Store

@[simp] theorem commit_ok {α : Type} (s draft : Store) (value : α) :
    s.commit (.ok (draft, value)) = ⟨draft, .ok value⟩ := rfl

@[simp] theorem commit_error {α : Type} (s : Store) (e : StoreError) :
    s.commit (.error e : Except StoreError (Store × α)) = ⟨s, .error e⟩ := rfl

/-- An operation leaves the store as it was, with an error, or makes its draft the store. -/
theorem commit_cases {α : Type} (s : Store) (outcome : Except StoreError (Store × α)) :
    (∃ e, s.commit outcome = ⟨s, .error e⟩) ∨
      ∃ draft value, outcome = .ok (draft, value) ∧ s.commit outcome = ⟨draft, .ok value⟩ := by
  cases outcome with
  | error e => exact .inl ⟨e, rfl⟩
  | ok result => exact .inr ⟨result.1, result.2, rfl, rfl⟩

/-! ## Steps -/

/-- The store with a row of statuses added. -/
def withStatus (s : Store) (row : StatusRow) : Store :=
  { s with statuses := s.statuses ++ [row] }

/-- The row is live and has an identity. -/
def isNumbered (id : Uuid) (r : StatusRow) : Bool :=
  r.id = .text id.toText && r.isLive

/-- The store with the live rows of an identity overwritten. -/
def overwritten (s : Store) (id : Uuid) (w : StatusWrite) : Store :=
  { s with statuses := s.statuses.map fun r => if isNumbered id r then w.applyTo r else r }

/-- Writing is nothing that changes what a row is told by. -/
theorem overwritten_same (id : Uuid) (w : StatusWrite) (r : StatusRow) :
    (if isNumbered id r then w.applyTo r else r).id = r.id ∧
      ∀ key, (if isNumbered id r then w.applyTo r else r).isOf key = r.isOf key := by
  cases isNumbered id r with
  | true => exact ⟨rfl, fun _ => rfl⟩
  | false => exact ⟨rfl, fun _ => rfl⟩

theorem updateStatus_eq_ok_iff {s draft : Store} {id : Uuid} {w : StatusWrite} :
    s.updateStatus id w = .ok draft ↔
      s.statuses.any (isNumbered id) = true ∧ draft = s.overwritten id w := by
  change (if s.statuses.any (isNumbered id) then .ok (s.overwritten id w)
    else .error (StoreError.notFound (.statusRow id))) = Except.ok draft ↔ _
  by_cases hany : s.statuses.any (isNumbered id)
  · rw [if_pos hany]
    simp only [Except.ok.injEq, hany, true_and]
    exact eq_comm
  · rw [if_neg hany]
    simp only [reduceCtorEq, hany, Bool.false_eq_true, false_and]

/-- Overwriting moves no row to another key. -/
theorem findStatus?_overwritten (s : Store) (id : Uuid) (w : StatusWrite) (key : StatusKey) :
    (s.overwritten id w).findStatus? key =
      (s.findStatus? key).map fun r => if isNumbered id r then w.applyTo r else r := by
  simp only [findStatus?, overwritten, List.find?_map, Function.comp_def, overwritten_same]

/-- What is written to the identity of a key's row is found at the key. -/
theorem findStatus?_overwritten_of_isNumbered {s : Store} {key : StatusKey} {row : StatusRow} {id : Uuid}
    (hfind : s.findStatus? key = some row) (hnumbered : isNumbered id row = true) (w : StatusWrite) :
    (s.overwritten id w).findStatus? key = some (w.applyTo row) := by
  rw [findStatus?_overwritten, hfind, Option.map_some, if_pos hnumbered]

/-- Overwriting is felt if some row that it hits is not what is written already. -/
theorem overwritten_ne_iff {s : Store} {id : Uuid} {w : StatusWrite} :
    s.overwritten id w ≠ s ↔ ∃ r ∈ s.statuses, isNumbered id r = true ∧ w.applyTo r ≠ r := by
  have hmap : s.overwritten id w = s ↔
      (s.statuses.map fun r => if isNumbered id r then w.applyTo r else r) =
      s.statuses.map fun r => r := by
    rw [List.map_id']
    exact ⟨fun h => congrArg Store.statuses h, fun h => by rw [overwritten, h]⟩
  rw [ne_eq, hmap, List.map_inj_left]
  simp only [Classical.not_forall, exists_prop]
  apply exists_congr
  intro r
  apply and_congr_right
  intro _
  cases isNumbered id r <;> simp

theorem isOf_toRow (w : StatusWrite) (id : Uuid) (key : StatusKey) :
    (w.toRow id key).isOf key = true := by
  simp [StatusWrite.toRow, StatusRow.isOf, StatusRow.isAbout, StatusRow.isLive, StatusKey.owner]

/-- A row that is added to a key without one is the one that the key has then. -/
theorem findStatus?_withStatus {s : Store} {key : StatusKey} {w : StatusWrite} {id : Uuid}
    (h : s.findStatus? key = none) :
    (s.withStatus (w.toRow id key)).findStatus? key = some (w.toRow id key) := by
  have hnone : s.statuses.find? (·.isOf key) = none := h
  simp only [findStatus?, withStatus, List.find?_append, hnone, Option.none_or,
    List.find?_cons, isOf_toRow]

theorem findStatus?_isOf {s : Store} {key : StatusKey} {row : StatusRow}
    (h : s.findStatus? key = some row) : row.isOf key = true :=
  List.find?_some (p := fun r : StatusRow => r.isOf key) h

theorem findStatus?_isLive {s : Store} {key : StatusKey} {row : StatusRow}
    (h : s.findStatus? key = some row) : row.isLive = true := by
  have hof := findStatus?_isOf h
  simp only [StatusRow.isOf, StatusRow.isAbout, Bool.and_eq_true] at hof
  exact hof.1.2

/-- Live rows with the cells of a key are the rows of that key. -/
theorem isOf_iff_cells {r : StatusRow} {key : StatusKey} {w : StatusWrite} {id : Uuid} :
    (r.isLive && r.resourceType = (w.toRow id key).resourceType &&
      r.resourceId = (w.toRow id key).resourceId && r.adapter = (w.toRow id key).adapter) =
      r.isOf key := by
  simp only [StatusRow.isOf, StatusRow.isAbout, StatusWrite.toRow, StatusKey.owner]
  cases r.isLive <;> simp [-Bool.decide_and]
  rfl

/-- A row of a key is added exactly if its identity is fresh and the key has no row. -/
theorem insertStatus_eq_ok_iff {s draft : Store} {w : StatusWrite} {id : Uuid} {key : StatusKey} :
    s.insertStatus (w.toRow id key) = .ok draft ↔
      (∀ r ∈ s.statuses, r.id ≠ .text id.toText) ∧ s.findStatus? key = none ∧
        draft = s.withStatus (w.toRow id key) := by
  unfold insertStatus
  simp only [isOf_iff_cells]
  by_cases hid : s.statuses.any fun r => r.id = (w.toRow id key).id
  · rw [if_pos hid]
    simp only [reduceCtorEq, false_iff, not_and]
    intro hfresh
    obtain ⟨r, hr, heq⟩ := List.any_eq_true.mp hid
    exact absurd (of_decide_eq_true heq) (hfresh r hr)
  · rw [if_neg hid]
    have hfresh : ∀ r ∈ s.statuses, r.id ≠ .text id.toText := by
      intro r hr heq
      exact hid (List.any_eq_true.mpr ⟨r, hr, decide_eq_true heq⟩)
    have hnone : (s.statuses.any fun r => r.isOf key) = true ↔ ¬ s.findStatus? key = none := by
      simp [findStatus?]
    by_cases hkey : s.statuses.any fun r => r.isOf key
    · rw [if_pos hkey]
      simp only [reduceCtorEq, hnone.mp hkey, false_and, and_false]
    · rw [if_neg hkey]
      have habsent : s.findStatus? key = none := by
        rw [hnone, Decidable.not_not] at hkey
        exact hkey
      simp only [Except.ok.injEq, habsent, true_and]
      exact ⟨fun h => ⟨hfresh, h.symm⟩, fun h => h.2.symm⟩

theorem getStatusForUpdate_eq_ok_iff {s : Store} {key : StatusKey}
    {existing : Option StatusRecord} :
    s.getStatusForUpdate key = .ok existing ↔
      (s.findStatus? key = none ∧ existing = none) ∨
      ∃ row record, s.findStatus? key = some row ∧ StatusRecord.ofRowForUpdate row = .ok record ∧
        existing = some record := by
  unfold getStatusForUpdate
  cases hfind : s.findStatus? key with
  | none =>
      simp only [Except.ok.injEq, reduceCtorEq, false_and, exists_false, or_false, true_and]
      exact eq_comm
  | some row =>
      simp only [bind_eq_ok_iff, reduceCtorEq, false_and, false_or, Option.some.injEq]
      constructor
      · rintro ⟨record, hrecord, hexisting⟩
        cases hexisting
        exact ⟨row, record, rfl, hrecord, rfl⟩
      · rintro ⟨found, record, hfound, hrecord, hexisting⟩
        cases hfound
        cases hexisting
        exact ⟨record, hrecord, rfl⟩

theorem getStatus_never_eq_ok_iff {s : Store} {key : StatusKey} {record : StatusRecord} :
    s.getStatus .never key = .ok (some record) ↔
      ∃ row, s.findStatus? key = some row ∧ StatusRecord.ofRow row = .ok record := by
  unfold getStatus
  cases hfind : s.findStatus? key with
  | none => simp [Cancellation.checkStart, bind, Except.bind, pure, Except.pure]
  | some row =>
      simp only [Cancellation.checkStart, bind_eq_ok_iff, Option.some.injEq]
      constructor
      · rintro ⟨-, -, found, hfound, hrecord⟩
        cases hrecord
        exact ⟨row, rfl, hfound⟩
      · rintro ⟨found, hfound, hrecord⟩
        cases hfound
        exact ⟨(), trivial, record, hrecord, rfl⟩

/-- A key without a row has no status. -/
theorem getStatus_of_absent {s : Store} {cancel : Cancellation} {key : StatusKey}
    (hcancel : cancel ≠ .before) (h : s.findStatus? key = none) :
    s.getStatus cancel key = .ok none := by
  simp [getStatus, Cancellation.checkStart_of_ne hcancel, h, bind, Except.bind, pure, Except.pure]

/-! ## The plan -/

/-- Other writers add rows of the key and no others. -/
def Contests (contention : Nat → Contention) (key : StatusKey) : Prop :=
  ∀ attempt reason r, contention attempt = .lost reason (some r) → r.isOf key = true

theorem contests_clear (key : StatusKey) : Contests (fun _ => .clear) key := by
  intro attempt reason r hlost
  cases hlost

/-- The store as an upsert finds it when it writes: with a row that another
writer has added, or alone. -/
inductive IsJoined (contention : Nat → Contention) (key : StatusKey) (s : Store) :
    Store → Prop where
  | alone : IsJoined contention key s s
  | joined {attempt : Nat} {reason : String} {r : StatusRow}
      (lost : contention attempt = .lost reason (some r)) (absent : s.findStatus? key = none) :
      IsJoined contention key s (s.withStatus r)

/-- Without other writers nothing joins. -/
theorem IsJoined.eq_of_clear {key : StatusKey} {s base : Store}
    (h : IsJoined (fun _ => .clear) key s base) : base = s := by
  cases h with
  | alone => rfl
  | joined lost _ => cases lost

theorem tryInsert_eq_none {s draft : Store} {row : StatusRow} {contention : Contention}
    (h : s.tryInsert row contention = (draft, none)) : s.insertStatus row = .ok draft := by
  unfold tryInsert at h
  split at h
  · cases h
  · split at h
    · cases h
      assumption
    · cases h

/-- The store after an insertion that failed: with the row of the writer that won, if it left
one. -/
def withRival (s : Store) : Contention → Store
  | .lost _ winner => s.withWinner winner
  | .clear => s

theorem withRival_cases (s : Store) (contention : Contention) :
    s.withRival contention = s ∨
      ∃ reason r, contention = .lost reason (some r) ∧ s.withRival contention = s.withStatus r := by
  cases contention with
  | clear => exact .inl rfl
  | lost reason winner =>
      cases winner with
      | none => exact .inl (by simp [withRival, withWinner])
      | some r => exact .inr ⟨reason, r, rfl, rfl⟩

theorem withRival_of_tryInsert {s next : Store} {row : StatusRow} {contention : Contention}
    {reason : String} (h : s.tryInsert row contention = (next, some reason)) :
    next = s.withRival contention := by
  unfold tryInsert at h
  split at h
  · cases h
    rfl
  · split at h
    · cases h
    · cases h
      rfl

theorem isSome_of_getStatusForUpdate {s : Store} {key : StatusKey} {r : StatusRow}
    {existing : Option StatusRecord} (h : (s.withStatus r).getStatusForUpdate key = .ok existing)
    (hof : r.isOf key = true) : existing.isSome = true := by
  obtain ⟨hnone, -⟩ | ⟨row, record, -, -, rfl⟩ := getStatusForUpdate_eq_ok_iff.mp h
  · have hmissing := List.find?_eq_none.mp hnone r (by simp [withStatus])
    exact absurd hof hmissing
  · rfl

theorem absent_of_getStatusForUpdate {s : Store} {key : StatusKey}
    (h : s.getStatusForUpdate key = .ok none) : s.findStatus? key = none := by
  obtain ⟨hnone, -⟩ | ⟨row, record, -, -, hsome⟩ := getStatusForUpdate_eq_ok_iff.mp h
  · exact hnone
  · cases hsome

/-- What a plan writes is written over a store with what other writers added: as a row of the key,
which had none, or over the rows that have the identity of the one that the key has. -/
inductive Writes (planner : Planner) (key : StatusKey) (id : Uuid) (base : Store) :
    Store → Bool → Prop where
  | insert {earlier : List (Option StatusRecord)} {w : StatusWrite}
      (plan : (planner earlier none).plan = .write w)
      (fresh : ∀ r ∈ base.statuses, r.id ≠ .text id.toText)
      (absent : base.findStatus? key = none) :
      Writes planner key id base (base.withStatus (w.toRow id key)) true
  | update {earlier : List (Option StatusRecord)} {w : StatusWrite} {row : StatusRow}
      {previous : StatusRecord} (plan : (planner earlier (some previous)).plan = .write w)
      (found : base.findStatus? key = some row)
      (read : StatusRecord.ofRowForUpdate row = .ok previous)
      (numbered : base.statuses.any (isNumbered previous.id) = true) :
      Writes planner key id base (base.overwritten previous.id w) false

/-- What is written of statuses leaves the resources alone. -/
theorem Writes.resources_eq {planner : Planner} {key : StatusKey} {id : Uuid}
    {s draft : Store} {inserted : Bool} (h : Writes planner key id s draft inserted) :
    draft.resources = s.resources := by
  cases h with
  | insert plan fresh absent => rfl
  | update plan found read numbered => rfl

/-- Whatever a plan says when it is asked, it might have said at another asking. -/
theorem Writes.of_asked {planner : Planner} {asked : List (Option StatusRecord)} {key : StatusKey}
    {id : Uuid} {base draft : Store} {inserted : Bool}
    (h : Writes (fun _ => planner asked) key id base draft inserted) :
    Writes planner key id base draft inserted := by
  cases h with
  | insert plan fresh absent => exact .insert plan fresh absent
  | update plan found read numbered => exact .update plan found read numbered

/-- What one asking of a plan comes to: nothing is written, or what the plan says is written, or an
insertion has failed and the plan is asked again. -/
inductive IsAsked (key : StatusKey) (id : Uuid) (planner : Planner) (contention : Nat → Contention)
    (left : Nat) (s : Store) (earlier : List (Option StatusRecord))
    (existing : Option StatusRecord) (run : UpsertRun) : Prop where
  | ended (calls : run.calls = earlier ++ [existing])
      (ending : ∀ draft inserted, run.ending ≠ .ok (.written draft inserted))
  | written {draft : Store} {inserted : Bool} (calls : run.calls = earlier ++ [existing])
      (ending : run.ending = .ok (.written draft inserted))
      (writes : Writes (fun _ => planner earlier) key id s draft inserted)
  | again {left' : Nat} {cancelled : Bool} {next : Store} {found : Option StatusRecord}
      (more : left = left' + 1) (absent : existing = none)
      (rival : next = s.withRival (contention earlier.length))
      (read : next.getStatusForUpdate key = .ok found)
      (rest : run = runPlan key id planner contention left' next (earlier ++ [none]) cancelled found)

theorem isAsked_runPlan {key : StatusKey} {id : Uuid} {planner : Planner}
    {contention : Nat → Contention} (left : Nat) (s : Store) (earlier : List (Option StatusRecord))
    (cancelled : Bool) (existing : Option StatusRecord)
    (hexisting : s.getStatusForUpdate key = .ok existing) :
    IsAsked key id planner contention left s earlier existing
      (runPlan key id planner contention left s earlier cancelled existing) := by
  unfold runPlan
  dsimp only
  split
  · exact .ended rfl (by simp)
  · rename_i w previous hwrite
    obtain ⟨-, hnone⟩ | ⟨row, record, hfind, hread, hsome⟩ :=
      getStatusForUpdate_eq_ok_iff.mp hexisting
    · cases hnone
    · cases hsome
      cases hupdate : s.updateStatus previous.id w with
      | error e => exact .ended rfl (by simp [Except.map])
      | ok updated =>
          obtain ⟨hany, rfl⟩ := updateStatus_eq_ok_iff.mp hupdate
          exact .written rfl rfl (@Writes.update _ key id s [] w row previous hwrite hfind hread hany)
  · rename_i w hwrite
    split
    · rename_i draft hinsert
      obtain ⟨hfresh, habsent, rfl⟩ := insertStatus_eq_ok_iff.mp (tryInsert_eq_none hinsert)
      exact .written rfl rfl (@Writes.insert _ key id s [] w hwrite hfresh habsent)
    · exact .ended rfl (by simp)
    · rename_i next reason left' hinsert
      split
      · exact .ended rfl (by simp)
      · rename_i found hread
        exact .again rfl rfl (withRival_of_tryInsert hinsert) hread rfl

/-- What is written in the end was written when the plan was asked last, whatever other writers add. -/
theorem exists_writes {key : StatusKey} {id : Uuid} {planner : Planner}
    {contention : Nat → Contention} {draft : Store} {inserted : Bool} (left : Nat) (s : Store)
    (earlier : List (Option StatusRecord)) (cancelled : Bool) (existing : Option StatusRecord)
    (hexisting : s.getStatusForUpdate key = .ok existing)
    (hrun : (runPlan key id planner contention left s earlier cancelled existing).ending =
      .ok (.written draft inserted)) : ∃ base, Writes planner key id base draft inserted := by
  induction left using Nat.strongRecOn generalizing s earlier cancelled existing with
  | ind left ih =>
      cases isAsked_runPlan left s earlier cancelled existing hexisting with
      | ended calls ending => exact absurd hrun (ending draft inserted)
      | written calls ending writes =>
          cases hrun.symm.trans ending
          exact ⟨s, writes.of_asked⟩
      | again more absent rival read rest =>
          rw [rest] at hrun
          exact ih _ (by omega) _ _ _ _ read hrun

/-- What is written in the end is what some asking of the plan said. -/
theorem runPlan_written {key : StatusKey} {id : Uuid} {planner : Planner}
    {contention : Nat → Contention} (hcontests : Contests contention key) {draft : Store}
    {inserted : Bool} (left : Nat) (s : Store) (earlier : List (Option StatusRecord))
    (cancelled : Bool) (existing : Option StatusRecord)
    (hexisting : s.getStatusForUpdate key = .ok existing)
    (hrun : (runPlan key id planner contention left s earlier cancelled existing).ending =
      .ok (.written draft inserted)) :
    ∃ base, IsJoined contention key s base ∧ (existing.isSome = true → base = s) ∧
      Writes planner key id base draft inserted := by
  induction left using Nat.strongRecOn generalizing s earlier cancelled existing with
  | ind left ih =>
      cases isAsked_runPlan left s earlier cancelled existing hexisting with
      | ended calls ending => exact absurd hrun (ending draft inserted)
      | written calls ending writes =>
          cases hrun.symm.trans ending
          exact ⟨s, .alone, fun _ => rfl, writes.of_asked⟩
      | again more absent rival read rest =>
          subst absent
          rw [rest] at hrun
          obtain ⟨base, hjoined, hbase, hwrites⟩ := ih _ (by omega) _ _ _ _ read hrun
          obtain hsame | ⟨reason, r, hlost, hwith⟩ :=
            s.withRival_cases (contention earlier.length)
          · rw [rival, hsame] at hjoined
            exact ⟨base, hjoined, (nomatch ·), hwrites⟩
          · rw [rival, hwith] at read hbase
            have hsome := isSome_of_getStatusForUpdate read (hcontests _ _ _ hlost)
            rw [hbase hsome] at hwrites
            exact ⟨_, .joined hlost (absent_of_getStatusForUpdate hexisting), (nomatch ·), hwrites⟩

/-! ## The whole -/

/-- An upsert that writes reads back what it wrote. -/
structure Upserts (cancel : Cancellation) (planner : Planner) (contention : Nat → Contention)
    (key : StatusKey) (id : Uuid) (s draft : Store) (inserted : Bool) (record : StatusRecord) :
    Prop where
  owner : (s.findResource? key.owner).isSome = true
  cancel : cancel = .never
  writes : ∃ base, IsJoined contention key s base ∧ Writes planner key id base draft inserted
  readBack : ∃ row, draft.findStatus? key = some row ∧ StatusRecord.ofRow row = .ok record

/-- The outcome of an upsert that wrote. -/
def writtenOutcome (inserted : Bool) (record : StatusRecord) : UpsertOutcome :=
  if inserted then .inserted record else .updated record

theorem endUpsert_eq_ok {s draft : Store} {cancel : Cancellation} {key : StatusKey}
    {run : UpsertRun} {outcome : UpsertOutcome}
    (h : s.endUpsert cancel key run = .ok (draft, outcome)) :
    (run.ending = .ok .skipped ∧ draft = s ∧ outcome = .skipped) ∨
      ∃ inserted record, run.ending = .ok (.written draft inserted) ∧
        (∃ row, draft.findStatus? key = some row ∧ StatusRecord.ofRow row = .ok record) ∧
        cancel = .never ∧ outcome = writtenOutcome inserted record := by
  unfold endUpsert at h
  obtain ⟨ending, hending, h⟩ := bind_eq_ok_iff.mp h
  cases ending with
  | skipped =>
      cases h
      exact .inl ⟨hending, rfl, rfl⟩
  | written written inserted =>
      obtain ⟨found, hfound, h⟩ := bind_eq_ok_iff.mp h
      cases found with
      | none => cases h
      | some record =>
          obtain ⟨⟨⟩, hcheck, h⟩ := bind_eq_ok_iff.mp h
          cases h
          exact .inr ⟨inserted, record, hending, getStatus_never_eq_ok_iff.mp hfound,
            Cancellation.never_of_checkEnd hcheck, rfl⟩

theorem startUpsert_eq_ok {s : Store} {cancel : Cancellation} {key : StatusKey}
    {existing : Option StatusRecord} (h : s.startUpsert cancel key = .ok existing) :
    (s.findResource? key.owner).isSome = true ∧ s.getStatusForUpdate key = .ok existing := by
  unfold startUpsert at h
  obtain ⟨-, -, h⟩ := bind_eq_ok_iff.mp h
  cases howner : s.findResource? key.owner with
  | none => simp [howner, bind, Except.bind, throw, throwThe, MonadExceptOf.throw] at h
  | some row =>
      simp only [howner, Option.isNone_some, Bool.false_eq_true, if_false] at h
      exact ⟨rfl, h⟩

/-- An upsert fails or skips, and the store is as it was; or what came of the plan is stored after it
was read back. -/
theorem upsertStatus_ends (s : Store) (cancel : Cancellation) (key : StatusKey) (id : Uuid)
    (planner : Planner) (contention : Nat → Contention) :
    (∃ e, (s.upsertStatus cancel key id planner contention).toAnswer = ⟨s, .error e⟩) ∨
    (s.upsertStatus cancel key id planner contention).toAnswer = ⟨s, .ok .skipped⟩ ∨
    ∃ existing draft inserted record, s.startUpsert cancel key = .ok existing ∧
      (runPlan key id planner contention (attempts - 1) s [] false existing).ending =
        .ok (.written draft inserted) ∧
      s.upsertStatus cancel key id planner contention =
        ⟨⟨draft, .ok (writtenOutcome inserted record)⟩,
          (runPlan key id planner contention (attempts - 1) s [] false existing).calls⟩ ∧
      cancel = .never ∧
      ∃ row, draft.findStatus? key = some row ∧ StatusRecord.ofRow row = .ok record := by
  unfold upsertStatus
  cases hstart : s.startUpsert cancel key with
  | error e => exact .inl ⟨e, rfl⟩
  | ok existing =>
      simp only
      cases hend : s.endUpsert cancel key
          (runPlan key id planner contention (attempts - 1) s [] false existing) with
      | error e => exact .inl ⟨e, rfl⟩
      | ok result =>
          obtain ⟨draft, outcome⟩ := result
          right
          obtain ⟨-, rfl, rfl⟩ | ⟨inserted, record, hrun, hread, hcancel, rfl⟩ :=
            endUpsert_eq_ok hend
          · exact .inl rfl
          · exact .inr ⟨existing, draft, inserted, record, rfl, hrun, rfl, hcancel, hread⟩

/-- An upsert fails or skips, and the store is as it was; or it writes. -/
theorem upsertStatus_cases (s : Store) (cancel : Cancellation) {key : StatusKey} (id : Uuid)
    (planner : Planner) {contention : Nat → Contention} (hcontests : Contests contention key) :
    (∃ e, (s.upsertStatus cancel key id planner contention).toAnswer = ⟨s, .error e⟩) ∨
    (s.upsertStatus cancel key id planner contention).toAnswer = ⟨s, .ok .skipped⟩ ∨
    ∃ draft inserted record,
      (s.upsertStatus cancel key id planner contention).toAnswer =
        ⟨draft, .ok (writtenOutcome inserted record)⟩ ∧
      Upserts cancel planner contention key id s draft inserted record := by
  refine (s.upsertStatus_ends cancel key id planner contention).imp_right (.imp_right ?_)
  rintro ⟨existing, draft, inserted, record, hstart, hrun, hanswer, hcancel, hread⟩
  obtain ⟨howner, hexisting⟩ := startUpsert_eq_ok hstart
  obtain ⟨base, hjoined, -, hwrites⟩ := runPlan_written hcontests _ _ _ _ _ hexisting hrun
  exact ⟨draft, inserted, record, congrArg UpsertAnswer.toAnswer hanswer, howner, hcancel,
    ⟨base, hjoined, hwrites⟩, hread⟩

/-! ## Upserts that nobody cancels -/

theorem startUpsert_of_owner {s : Store} {key : StatusKey}
    (h : (s.findResource? key.owner).isSome = true) :
    s.startUpsert .never key = s.getStatusForUpdate key := by
  obtain ⟨owner, howner⟩ := Option.isSome_iff_exists.mp h
  simp [startUpsert, Cancellation.checkStart, howner, bind, Except.bind]

/-- Without an owner nothing is written. -/
theorem upsertStatus_of_missing {s : Store} {key : StatusKey} {cancel : Cancellation}
    (hcancel : cancel ≠ .before) (h : s.findResource? key.owner = none) (id : Uuid)
    (planner : Planner) (contention : Nat → Contention) :
    (s.upsertStatus cancel key id planner contention).toAnswer =
      ⟨s, .error (.notFound (.resource key.owner))⟩ := by
  have hstart : s.startUpsert cancel key = .error (.notFound (.resource key.owner)) := by
    simp [startUpsert, Cancellation.checkStart_of_ne hcancel, h, bind, Except.bind, throw, throwThe,
      MonadExceptOf.throw]
  unfold upsertStatus
  rw [hstart]
  rfl

/-- What the plan skips stays as it is. -/
theorem upsertStatus_of_skip {s : Store} {key : StatusKey} {planner : Planner}
    {existing : Option StatusRecord} (id : Uuid) (contention : Nat → Contention)
    (howner : (s.findResource? key.owner).isSome = true)
    (hexisting : s.getStatusForUpdate key = .ok existing)
    (hplan : planner [] existing = ⟨.skip, false⟩) :
    (s.upsertStatus .never key id planner contention).toAnswer = ⟨s, .ok .skipped⟩ := by
  have hrun : runPlan key id planner contention (attempts - 1) s [] false existing =
      ⟨[existing], false, .ok .skipped⟩ := by
    unfold runPlan
    simp [hplan]
  unfold upsertStatus
  rw [startUpsert_of_owner howner, hexisting]
  simp only [hrun]
  rfl

/-- What the plan has written is what the upsert ends with, if the row of it can be read back. -/
theorem endUpsert_of_written {s draft : Store} {key : StatusKey}
    {calls : List (Option StatusRecord)} {inserted : Bool} {row : StatusRow}
    {back : Except StoreError StatusRecord} (hfind : draft.findStatus? key = some row)
    (hread : StatusRecord.ofRow row = back) :
    s.endUpsert .never key ⟨calls, false, .ok (.written draft inserted)⟩ =
      back.map fun record => (draft, writtenOutcome inserted record) := by
  cases back with
  | error e =>
      simp [endUpsert, getStatus, Cancellation.checkStart, hfind, hread, bind, Except.bind, Except.map]
  | ok record =>
      have hback := getStatus_never_eq_ok_iff.mpr ⟨row, hfind, hread⟩
      simp [endUpsert, hback, Cancellation.checkEnd, bind, Except.bind, pure, Except.pure,
        writtenOutcome, Except.map]

/-- What has no row gets one with the fresh identity, if that can be read back. -/
theorem upsertStatus_of_absent {s : Store} {key : StatusKey} {planner : Planner}
    {back : Except StoreError StatusRecord} {w : StatusWrite} {id : Uuid}
    {contention : Nat → Contention}
    (hclear : contention 0 = .clear) (howner : (s.findResource? key.owner).isSome = true)
    (habsent : s.findStatus? key = none) (hplan : planner [] none = ⟨.write w, false⟩)
    (hfresh : ∀ r ∈ s.statuses, r.id ≠ .text id.toText)
    (hread : StatusRecord.ofRow (w.toRow id key) = back) :
    (s.upsertStatus .never key id planner contention).toAnswer =
      s.commit (back.map fun record => (s.withStatus (w.toRow id key), .inserted record)) := by
  have hexisting : s.getStatusForUpdate key = .ok none :=
    getStatusForUpdate_eq_ok_iff.mpr (.inl ⟨habsent, rfl⟩)
  have hinsert : s.insertStatus (w.toRow id key) = .ok (s.withStatus (w.toRow id key)) :=
    insertStatus_eq_ok_iff.mpr ⟨hfresh, habsent, rfl⟩
  have hrun : runPlan key id planner contention (attempts - 1) s [] false none =
      ⟨[none], false, .ok (.written (s.withStatus (w.toRow id key)) true)⟩ := by
    unfold runPlan
    simp [hplan, hclear, tryInsert, hinsert]
  unfold upsertStatus
  rw [startUpsert_of_owner howner, hexisting]
  simp only [hrun, endUpsert_of_written (findStatus?_withStatus habsent) hread, writtenOutcome,
    if_true]

/-- What has a row is overwritten under the identity that the row says, if it can be read back. -/
theorem upsertStatus_of_found {s : Store} {key : StatusKey} {planner : Planner}
    {row row' : StatusRow} {previous : StatusRecord} {back : Except StoreError StatusRecord}
    {w : StatusWrite} (id : Uuid) (contention : Nat → Contention)
    (howner : (s.findResource? key.owner).isSome = true) (hfind : s.findStatus? key = some row)
    (hupdate : StatusRecord.ofRowForUpdate row = .ok previous)
    (hplan : planner [] (some previous) = ⟨.write w, false⟩)
    (hany : s.statuses.any (isNumbered previous.id) = true)
    (hfind' : (s.overwritten previous.id w).findStatus? key = some row')
    (hread : StatusRecord.ofRow row' = back) :
    (s.upsertStatus .never key id planner contention).toAnswer =
      s.commit (back.map fun record => (s.overwritten previous.id w, .updated record)) := by
  have hexisting : s.getStatusForUpdate key = .ok (some previous) :=
    getStatusForUpdate_eq_ok_iff.mpr (.inr ⟨row, previous, hfind, hupdate, rfl⟩)
  have hrun : runPlan key id planner contention (attempts - 1) s [] false (some previous) =
      ⟨[some previous], false, .ok (.written (s.overwritten previous.id w) false)⟩ := by
    have hwritten : s.updateStatus previous.id w = .ok (s.overwritten previous.id w) :=
      updateStatus_eq_ok_iff.mpr ⟨hany, rfl⟩
    unfold runPlan
    simp [hplan, hwritten, Except.map]
  unfold upsertStatus
  rw [startUpsert_of_owner howner, hexisting]
  simp only [hrun, endUpsert_of_written hfind' hread, writtenOutcome, Bool.false_eq_true, if_false]

end Store
end StatusBoard

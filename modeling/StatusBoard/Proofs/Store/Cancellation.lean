import StatusBoard.Proofs.Store.Resources
set_option autoImplicit false

/-!
# Store: cancelled writes

There are four operations that write.  Each of them may be cancelled before it starts, while it
runs, or by the function that it is given and calls while it runs.  Each looks at its cancellation
twice, when it starts and when all is written but nothing counts yet.  So whenever it is cancelled
before the last look, nothing of what it has written by then is left; and if it is not, it is as if
it could not have been.
-/

namespace StatusBoard

/-! ## Operations that write -/

/-- The plan that says the same and does not cancel. -/
def Planner.calm (planner : Planner) : Planner :=
  fun earlier existing => { planner earlier existing with cancels := false }

/-- A row was added or overwritten. -/
def UpsertOutcome.isWritten : UpsertOutcome → Bool
  | inserted _ | updated _ => true
  | skipped => false

/-- An operation that writes, by the type of what it answers. -/
inductive StoreWrite : Type → Type where
  | upsert (key : StatusKey) (id : Uuid) (planner : Planner) (contention : Nat → Contention) :
      StoreWrite UpsertOutcome
  | create (id : Uuid) (kind : String) (new : NewResource) (now : Instant) : StoreWrite Resource
  | delete (resource : ResourceRef) (now : Instant) : StoreWrite Unit
  | setConditions (resource : ResourceRef) (now : Instant) (replace : String → Store.Replacement) :
      StoreWrite Resource

namespace StoreWrite

variable {α : Type}

/-- Carries out an operation. -/
def run (s : Store) (cancel : Cancellation) : StoreWrite α → Answer α
  | upsert key id planner contention => (s.upsertStatus cancel key id planner contention).toAnswer
  | create id kind new now => s.createResource cancel id kind new now
  | delete resource now => s.deleteResource cancel resource now
  | setConditions resource now replace => s.updateConditions cancel resource now replace

/-- The operation with a function that says the same and does not cancel. -/
def calm : StoreWrite α → StoreWrite α
  | upsert key id planner contention => upsert key id planner.calm contention
  | create id kind new now => create id kind new now
  | delete resource now => delete resource now
  | setConditions resource now replace =>
    setConditions resource now fun raw => { replace raw with cancels := false }

/-- The answer tells of something written.  All answers do but those of an upsert whose plan has
skipped it. -/
def tells : StoreWrite α → α → Bool
  | upsert .. => UpsertOutcome.isWritten
  | create .. | delete .. | setConditions .. => fun _ => true

/-- The function that the operation is given cancels it on one of its calls. -/
def CancelsItself (s : Store) (cancel : Cancellation) : StoreWrite α → Prop
  | upsert key id planner contention => ∃ before shown after,
      (s.upsertStatus cancel key id planner contention).calls = before ++ shown :: after ∧
        (planner before shown).cancels = true
  | setConditions resource _ replace =>
      ∃ raw, s.conditionsText resource = .ok raw ∧ (replace raw).cancels = true
  | create .. | delete .. => False

end StoreWrite

/-- How an operation ends that is cancelled, given how it ends if it is not: at once if it was
cancelled before it started, and else with the same error, with the same answer if nothing was to
be written, and as cancelled if something was. -/
inductive GivesUp {α : Type} (cancel : Cancellation) (tells : α → Bool) :
    (calm result : Except StoreError α) → Prop where
  | atOnce {calm : Except StoreError α} (h : cancel = .before) :
      GivesUp cancel tells calm (.error .cancelled)
  | earlier (h : cancel ≠ .before) (e : StoreError) : GivesUp cancel tells (.error e) (.error e)
  | idle (h : cancel ≠ .before) {a : α} (htells : tells a = false) :
      GivesUp cancel tells (.ok a) (.ok a)
  | atLast (h : cancel ≠ .before) {a : α} (htells : tells a = true) :
      GivesUp cancel tells (.ok a) (.error .cancelled)

theorem GivesUp.tells_eq_false {α : Type} {cancel : Cancellation} {tells : α → Bool}
    {calm result : Except StoreError α} (h : GivesUp cancel tells calm result) {a : α}
    (ha : result = .ok a) : tells a = false := by
  cases h with
  | atOnce => cases ha
  | earlier => cases ha
  | idle _ htells => exact Except.ok.inj ha ▸ htells
  | atLast => cases ha

/-! ## What the two checks do -/

namespace Store

variable {α : Type} {s : Store} {cancel : Cancellation} {byItself : Bool} {tells : α → Bool}
  {body : Except StoreError (Store × α)}

/-- A body that knows nothing of cancellations, between a check at its start and one at its end; the
latter is made if something was written. -/
def checked (s : Store) (cancel : Cancellation) (byItself : Bool) (tells : α → Bool)
    (body : Except StoreError (Store × α)) : Answer α :=
  s.commit do
    cancel.checkStart
    let (draft, a) ← body
    if tells a then cancel.checkEnd byItself
    return (draft, a)

theorem checked_never (s : Store) (tells : α → Bool) (body : Except StoreError (Store × α)) :
    s.checked .never false tells body = s.commit body := by
  unfold checked
  cases body with
  | error e => rfl
  | ok p => cases htells : tells p.2 <;>
      simp [htells, Cancellation.checkStart, Cancellation.checkEnd, bind, Except.bind, pure,
        Except.pure]

/-- Nothing is left of what a cancelled body has written. -/
theorem checked_givesUp (hfires : cancel ≠ .never ∨ byItself = true)
    (hidle : ∀ draft a, body = .ok (draft, a) → tells a = false → draft = s) :
    (s.checked cancel byItself tells body).store = s ∧
      GivesUp cancel tells (s.commit body).result
        (s.checked cancel byItself tells body).result := by
  by_cases hbefore : cancel = .before
  · rw [checked, hbefore]
    exact ⟨rfl, .atOnce rfl⟩
  have hlast : cancel.checkEnd byItself = .error .cancelled := by
    unfold Cancellation.checkEnd
    rw [if_neg]
    simpa [imp_iff_not_or] using hfires
  simp only [checked, Cancellation.checkStart_of_ne hbefore]
  cases body with
  | error e => exact ⟨rfl, .earlier hbefore e⟩
  | ok p =>
      obtain ⟨draft, a⟩ := p
      cases htells : tells a with
      | true =>
          simp only [bind, Except.bind, htells, hlast, if_true]
          exact ⟨rfl, .atLast hbefore htells⟩
      | false =>
          simp only [bind, Except.bind, htells, Bool.false_eq_true, if_false]
          exact ⟨hidle draft a rfl htells, .idle hbefore htells⟩

end Store

/-! ## Each of the four -/

namespace StoreWrite

variable {α : Type} {w : StoreWrite α} {s : Store}

/-- An operation is a body between two checks, and the body leaves the store as it is when it
answers that there was nothing to write. -/
structure IsChecked (w : StoreWrite α) (s : Store) (byItself : Bool)
    (body : Except StoreError (Store × α)) : Prop where
  run : ∀ cancel, w.run s cancel = s.checked cancel byItself w.tells body
  calm : w.calm.run s .never = s.commit body
  idle : ∀ draft a, body = .ok (draft, a) → w.tells a = false → draft = s
  itself : ∀ cancel, cancel ≠ .before → (byItself = true ↔ w.CancelsItself s cancel)

/-- A cancelled operation gives up, and one that is not is a calm one. -/
theorem IsChecked.decides {byItself : Bool} {body : Except StoreError (Store × α)}
    (h : w.IsChecked s byItself body) (cancel : Cancellation) :
    (cancel ≠ .never ∨ w.CancelsItself s cancel →
      (w.run s cancel).store = s ∧
        GivesUp cancel w.tells (w.calm.run s .never).result (w.run s cancel).result) ∧
    (cancel = .never ∧ ¬ w.CancelsItself s cancel → w.run s cancel = w.calm.run s .never) := by
  rw [h.calm, h.run]
  refine ⟨fun hfires => Store.checked_givesUp ?_ h.idle, ?_⟩
  · by_cases hbefore : cancel = .before
    · exact .inl (by rw [hbefore]; nofun)
    · rwa [h.itself cancel hbefore]
  · rintro ⟨rfl, hquiet⟩
    have hitself : byItself = false := by
      rwa [← Bool.not_eq_true, h.itself .never nofun]
    rw [hitself, Store.checked_never]

/-- What creating a resource does between its checks. -/
def createBody (s : Store) (id : Uuid) (kind : String) (new : NewResource) (now : Instant) :
    Except StoreError (Store × Resource) := do
  if s.isTaken (new.toRow id kind now) then throw (.nameTaken kind new.name)
  let draft := { s with resources := s.resources ++ [new.toRow id kind now] }
  match ← draft.getResource .never ⟨kind, id.toText⟩ with
  | none => throw (.notFound (.resource ⟨kind, id.toText⟩))
  | some created => return (draft, created)

theorem isChecked_create (s : Store) (id : Uuid) (kind : String) (new : NewResource)
    (now : Instant) :
    (create id kind new now).IsChecked s false (createBody s id kind new now) := by
  have hrun : ∀ cancel, (create id kind new now).run s cancel =
      s.checked cancel false (create id kind new now).tells (createBody s id kind new now) := by
    intro cancel
    simp only [run, Store.createResource, Store.checked, createBody, tells]
    cases cancel.checkStart with
    | error e => rfl
    | ok started =>
        cases s.isTaken (new.toRow id kind now) with
        | true => rfl
        | false =>
            simp only [Bool.false_eq_true, if_false, bind, Except.bind, pure, Except.pure, if_true]
            cases Store.getResource _ .never _ with
            | error e => rfl
            | ok found => cases found <;> rfl
  exact {
    run := hrun
    calm := by rw [calm, hrun, Store.checked_never]
    idle := fun _ _ _ h => Bool.noConfusion h
    itself := fun _ _ => ⟨fun h => absurd h Bool.false_ne_true, False.elim⟩ }

/-- What deleting a resource does between its checks. -/
def deleteBody (s : Store) (resource : ResourceRef) (now : Instant) :
    Except StoreError (Store × Unit) := do
  if (s.findResource? resource).isNone then throw (.notFound (.resource resource))
  return (s.markDeleted resource now, ())

theorem isChecked_delete (s : Store) (resource : ResourceRef) (now : Instant) :
    (delete resource now).IsChecked s false (deleteBody s resource now) := by
  have hrun : ∀ cancel, (delete resource now).run s cancel =
      s.checked cancel false (delete resource now).tells (deleteBody s resource now) := by
    intro cancel
    simp only [run, Store.deleteResource, Store.checked, deleteBody, tells]
    cases cancel.checkStart with
    | error e => rfl
    | ok started => cases (s.findResource? resource).isNone <;> rfl
  exact {
    run := hrun
    calm := by rw [calm, hrun, Store.checked_never]
    idle := fun _ _ _ h => Bool.noConfusion h
    itself := fun _ _ => ⟨fun h => absurd h Bool.false_ne_true, False.elim⟩ }

/-- What setting conditions does between its checks. -/
def setBody (s : Store) (resource : ResourceRef) (now : Instant)
    (replace : String → Store.Replacement) : Except StoreError (Store × Resource) := do
  let draft := s.setConditions resource (replace (← s.conditionsText resource)).raw now
  match ← draft.getResource .never resource with
  | none => throw (.notFound (.resource resource))
  | some updated => return (draft, updated)

/-- The text that is made of a resource's conditions cancels the operation. -/
def setCancels (s : Store) (resource : ResourceRef) (replace : String → Store.Replacement) : Bool :=
  match s.conditionsText resource with
  | .ok raw => (replace raw).cancels
  | .error _ => false

theorem isChecked_setConditions (s : Store) (resource : ResourceRef) (now : Instant)
    (replace : String → Store.Replacement) :
    (setConditions resource now replace).IsChecked s (setCancels s resource replace)
      (setBody s resource now replace) := by
  have hrun : ∀ replace cancel, (setConditions resource now replace).run s cancel =
      s.checked cancel (setCancels s resource replace) (setConditions resource now replace).tells
        (setBody s resource now replace) := by
    intro replace cancel
    simp only [run, Store.updateConditions, Store.checked, setBody, setCancels, tells]
    cases cancel.checkStart with
    | error e => rfl
    | ok started =>
        cases s.conditionsText resource with
        | error e => rfl
        | ok raw =>
            simp only [bind, Except.bind, pure, Except.pure, if_true]
            cases Store.getResource _ .never _ with
            | error e => rfl
            | ok found => cases found <;> rfl
  have hquiet :
      setCancels s resource (fun raw => { replace raw with cancels := false }) = false := by
    unfold setCancels
    split <;> rfl
  exact {
    run := hrun replace
    calm := by rw [calm, hrun, hquiet, Store.checked_never]; rfl
    idle := fun _ _ _ h => Bool.noConfusion h
    itself := fun _ _ => by
      unfold setCancels CancelsItself
      cases hraw : s.conditionsText resource <;> simp [hraw] }

end StoreWrite

/-! ## Upserts -/

/-- The plan cancels the operation on one of the calls that follow the earlier ones. -/
def Planner.CancelsOn (planner : Planner) (earlier more : List (Option StatusRecord)) : Prop :=
  ∃ before shown after, more = before ++ shown :: after ∧
    (planner (earlier ++ before) shown).cancels = true

namespace Planner

variable {planner : Planner} {earlier more : List (Option StatusRecord)}
  {shown : Option StatusRecord}

theorem cancelsOn_nil : ¬ planner.CancelsOn earlier [] := by
  simp [CancelsOn]

theorem cancelsOn_cons : planner.CancelsOn earlier (shown :: more) ↔
    (planner earlier shown).cancels = true ∨ planner.CancelsOn (earlier ++ [shown]) more := by
  constructor
  · rintro ⟨before, other, after, hmore, hcancels⟩
    cases before with
    | nil =>
        cases hmore
        exact .inl (by simpa using hcancels)
    | cons first before =>
        cases hmore
        exact .inr ⟨before, other, after, rfl, by simpa using hcancels⟩
  · rintro (hcancels | ⟨before, other, after, rfl, hcancels⟩)
    · exact ⟨[], shown, more, rfl, by simpa using hcancels⟩
    · exact ⟨shown :: before, other, after, rfl, by simpa using hcancels⟩

end Planner

namespace Store

variable {key : StatusKey} {id : Uuid} {planner : Planner} {contention : Nat → Contention}

/-- What one asking of a plan comes to depends on what the plan says: either it is the last asking,
or the plan is asked once more.  The flag that is left behind depends on whether it cancels. -/
theorem runPlan_step (key : StatusKey) (id : Uuid) (contention : Nat → Contention) (left : Nat)
    (s : Store) (earlier : List (Option StatusRecord)) (existing : Option StatusRecord)
    (plan : Plan) :
    (∃ ending, ∀ planner : Planner, ∀ cancelled cancels,
      planner earlier existing = ⟨plan, cancels⟩ →
      runPlan key id planner contention left s earlier cancelled existing =
        ⟨earlier ++ [existing], cancelled || cancels, ending⟩) ∨
    ∃ left' next found, left = left' + 1 ∧ ∀ planner : Planner, ∀ cancelled cancels,
      planner earlier existing = ⟨plan, cancels⟩ →
      runPlan key id planner contention left s earlier cancelled existing =
        runPlan key id planner contention left' next (earlier ++ [existing])
          (cancelled || cancels) found := by
  cases plan with
  | skip =>
      refine .inl ⟨.ok .skipped, fun planner cancelled cancels hplan => ?_⟩
      rw [runPlan.eq_def]
      simp only [hplan]
  | write w =>
      cases existing with
      | some previous =>
          refine .inl ⟨(s.updateStatus previous.id w).map fun draft => .written draft false,
            fun planner cancelled cancels hplan => ?_⟩
          rw [runPlan.eq_def]
          simp only [hplan]
      | none =>
          cases htry : s.tryInsert (w.toRow id key) (contention earlier.length) with
          | mk next reason =>
          cases reason with
          | none =>
              refine .inl ⟨.ok (.written next true), fun planner cancelled cancels hplan => ?_⟩
              rw [runPlan.eq_def]
              simp only [hplan, htry]
          | some reason =>
              cases left with
              | zero =>
                  refine .inl ⟨.error (.database (.constraint reason)),
                    fun planner cancelled cancels hplan => ?_⟩
                  rw [runPlan.eq_def]
                  simp only [hplan, htry]
              | succ left =>
                  cases hread : next.getStatusForUpdate key with
                  | error e =>
                      refine .inl ⟨.error e, fun planner cancelled cancels hplan => ?_⟩
                      rw [runPlan.eq_def]
                      simp only [hplan, htry, hread]
                  | ok found =>
                      refine .inr ⟨left, next, found, rfl,
                        fun planner cancelled cancels hplan => ?_⟩
                      rw [runPlan.eq_def]
                      simp only [hplan, htry, hread]

/-- Call by call: the flag that a plan leaves behind tells whether it cancelled on one of its calls,
and a plan that says the same and does not cancel is shown the same and comes to the same. -/
theorem runPlan_calm (key : StatusKey) (id : Uuid) (planner : Planner)
    (contention : Nat → Contention) (left : Nat) (s : Store)
    (earlier : List (Option StatusRecord)) (existing : Option StatusRecord) :
    ∃ more cancels ending, (cancels = true ↔ planner.CancelsOn earlier more) ∧
      ∀ cancelled,
        runPlan key id planner contention left s earlier cancelled existing =
          ⟨earlier ++ more, cancelled || cancels, ending⟩ ∧
        runPlan key id planner.calm contention left s earlier cancelled existing =
          ⟨earlier ++ more, cancelled, ending⟩ := by
  have hplan : ∀ earlier existing, planner earlier existing =
      ⟨(planner earlier existing).plan, (planner earlier existing).cancels⟩ := fun _ _ => rfl
  have hcalm : ∀ earlier existing, planner.calm earlier existing =
      ⟨(planner earlier existing).plan, false⟩ := fun _ _ => rfl
  induction left using Nat.strongRecOn generalizing s earlier existing with
  | ind left ih =>
      obtain ⟨ending, hlast⟩ | ⟨left', next, found, rfl, hagain⟩ :=
        runPlan_step key id contention left s earlier existing (planner earlier existing).plan
      · refine ⟨[existing], _, ending, ?_, fun cancelled => ⟨hlast _ cancelled _ (hplan _ _), ?_⟩⟩
        · rw [Planner.cancelsOn_cons, or_iff_left Planner.cancelsOn_nil]
        · simpa using hlast _ cancelled _ (hcalm _ _)
      · obtain ⟨more, cancels, ending, hcancels, hrest⟩ :=
          ih left' left'.lt_succ_self next (earlier ++ [existing]) found
        refine ⟨existing :: more, (planner earlier existing).cancels || cancels, ending, ?_,
          fun cancelled => ⟨?_, ?_⟩⟩
        · rw [Bool.or_eq_true, hcancels, Planner.cancelsOn_cons]
        · rw [hagain _ cancelled _ (hplan _ _), (hrest _).1]
          simp [Bool.or_assoc]
        · rw [hagain _ cancelled _ (hcalm _ _), (hrest _).2]
          simp

/-- Writing is cancelled at the last check, and skipping never is. -/
theorem endUpsert_eq (s : Store) (cancel : Cancellation) (key : StatusKey) (run : UpsertRun) :
    s.endUpsert cancel key run = do
      let (draft, outcome) ← s.endUpsert .never key { run with cancelled := false }
      if outcome.isWritten then cancel.checkEnd run.cancelled
      return (draft, outcome) := by
  obtain ⟨calls, cancelled, ending⟩ := run
  cases ending with
  | error e => rfl
  | ok ending =>
      cases ending with
      | skipped => rfl
      | written draft inserted =>
          simp only [endUpsert, bind, Except.bind]
          cases draft.getStatus .never key with
          | error e => rfl
          | ok found =>
              cases found with
              | none => rfl
              | some record => cases inserted <;> rfl

theorem startUpsert_eq (s : Store) (cancel : Cancellation) (key : StatusKey) :
    s.startUpsert cancel key = (do
      cancel.checkStart
      s.startUpsert .never key) := by
  cases cancel <;> rfl

end Store

namespace StoreWrite

/-- What an upsert does between its checks. -/
def upsertBody (s : Store) (key : StatusKey) (id : Uuid) (planner : Planner)
    (contention : Nat → Contention) : Except StoreError (Store × UpsertOutcome) := do
  let existing ← s.startUpsert .never key
  let run := Store.runPlan key id planner contention (Store.attempts - 1) s [] false existing
  s.endUpsert .never key { run with cancelled := false }

/-- The plan of an upsert cancels it on one of its calls. -/
def upsertCancels (s : Store) (key : StatusKey) (id : Uuid) (planner : Planner)
    (contention : Nat → Contention) : Bool :=
  match s.startUpsert .never key with
  | .error _ => false
  | .ok existing =>
    (Store.runPlan key id planner contention (Store.attempts - 1) s [] false existing).cancelled

theorem isChecked_upsert (s : Store) (key : StatusKey) (id : Uuid) (planner : Planner)
    (contention : Nat → Contention) : (upsert key id planner contention).IsChecked s
      (upsertCancels s key id planner contention) (upsertBody s key id planner contention) := by
  have hrun : ∀ planner cancel, (upsert key id planner contention).run s cancel =
      s.checked cancel (upsertCancels s key id planner contention) UpsertOutcome.isWritten
        (upsertBody s key id planner contention) := by
    intro planner cancel
    simp only [run, Store.upsertStatus, Store.checked, upsertBody, upsertCancels]
    rw [s.startUpsert_eq cancel]
    cases cancel.checkStart with
    | error e => rfl
    | ok started =>
        cases s.startUpsert .never key with
        | error e => rfl
        | ok existing =>
            exact congrArg s.commit (s.endUpsert_eq cancel key _)
  have hquiet : upsertCancels s key id planner.calm contention = false ∧
      upsertBody s key id planner.calm contention = upsertBody s key id planner contention := by
    unfold upsertCancels upsertBody
    cases s.startUpsert .never key with
    | error e => exact ⟨rfl, rfl⟩
    | ok existing =>
        obtain ⟨more, cancels, ending, -, hplans⟩ := Store.runPlan_calm key id planner contention
          (Store.attempts - 1) s [] existing
        simp only [bind, Except.bind, (hplans false).1, (hplans false).2, and_self]
  exact {
    run := hrun planner
    calm := by rw [calm, hrun, hquiet.1, hquiet.2, Store.checked_never]
    idle := fun draft outcome hbody hidle => by
      obtain ⟨existing, -, hend⟩ := bind_eq_ok_iff.mp hbody
      obtain ⟨-, rfl, -⟩ | ⟨inserted, record, -, -, -, rfl⟩ := Store.endUpsert_eq_ok hend
      · rfl
      · cases inserted <;> cases hidle
    itself := fun cancel hcancel => by
      have hstart : s.startUpsert cancel key = s.startUpsert .never key := by
        rw [s.startUpsert_eq cancel, Cancellation.checkStart_of_ne hcancel]
        rfl
      simp only [upsertCancels, CancelsItself, Store.upsertStatus, hstart]
      cases s.startUpsert .never key with
      | error e => simp
      | ok existing =>
          obtain ⟨more, cancels, ending, hcancels, hplans⟩ := Store.runPlan_calm key id planner
            contention (Store.attempts - 1) s [] existing
          simp only [(hplans false).1, Bool.false_or, List.nil_append]
          simpa only [Planner.CancelsOn, List.nil_append] using hcancels }

/-- Whatever an operation that writes is given, and whatever store it is carried out on: if it is
cancelled before it starts, while it runs, or by the function that it calls on any of the calls,
then it answers nothing that was written and the store is as it was, and it has failed as cancelled
or with an earlier error, or has had nothing to write.  If it is not cancelled, it does and answers
what the one does that never could have been. -/
theorem cancelled_writes_nothing {α : Type} (w : StoreWrite α) (s : Store)
    (cancel : Cancellation) :
    (cancel ≠ .never ∨ w.CancelsItself s cancel →
      (∀ a, (w.run s cancel).result = .ok a → w.tells a = false) ∧
      (w.run s cancel).store = s ∧
      GivesUp cancel w.tells (w.calm.run s .never).result (w.run s cancel).result) ∧
    (cancel = .never ∧ ¬ w.CancelsItself s cancel → w.run s cancel = w.calm.run s .never) := by
  have hchecked : ∃ byItself body, w.IsChecked s byItself body := by
    cases w with
    | upsert key id planner contention => exact ⟨_, _, isChecked_upsert s key id planner contention⟩
    | create id kind new now => exact ⟨_, _, isChecked_create s id kind new now⟩
    | delete resource now => exact ⟨_, _, isChecked_delete s resource now⟩
    | setConditions resource now replace =>
        exact ⟨_, _, isChecked_setConditions s resource now replace⟩
  obtain ⟨byItself, body, hchecked⟩ := hchecked
  obtain ⟨hfires, hquiet⟩ := hchecked.decides cancel
  refine ⟨fun hcancelled => ?_, hquiet⟩
  obtain ⟨hstore, hgives⟩ := hfires hcancelled
  exact ⟨fun a ha => hgives.tells_eq_false ha, hstore, hgives⟩

/-- A cluster. -/
def soleCluster : Store where
  resources := [NewResource.toRow { name := "c1" } default "Cluster" default]
  statuses := []

/-- A plan that cancels the upsert when it is asked for the second time. -/
def hastyPlanner : Planner := fun earlier _ => {
  plan := .write {
    observedGeneration := 1, conditions := "[]", data := none, metadata := none, now := default }
  cancels := earlier.length = 1 }

/-- Another writer is first, once, and then its row is gone. -/
def lostOnce (attempt : Nat) : Contention :=
  if attempt = 0 then .lost "UNIQUE constraint failed" none else .clear

theorem cancelled_writes_nothing_sample :
    let w := upsert (.of ⟨"Cluster", (default : Uuid).toText⟩ "a1") default hastyPlanner lostOnce
    w.CancelsItself soleCluster .never ∧ (w.run soleCluster .never).store = soleCluster ∧
      (w.run soleCluster .never).result.isOk = false := by
  intro w
  have hcalls : (soleCluster.upsertStatus .never (.of ⟨"Cluster", (default : Uuid).toText⟩ "a1")
      default hastyPlanner lostOnce).calls.length = 2 := by
    decide +kernel
  have hcancels : w.CancelsItself soleCluster .never := by
    obtain ⟨first, second, hcalls⟩ := List.length_eq_two.mp hcalls
    exact ⟨[first], second, [], hcalls, rfl⟩
  obtain ⟨-, hstore, -⟩ := (cancelled_writes_nothing w soleCluster .never).1 (.inr hcancels)
  exact ⟨hcancels, hstore, by decide +kernel⟩

end StoreWrite
end StatusBoard

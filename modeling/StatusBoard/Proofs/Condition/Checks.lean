import StatusBoard.Condition.Mandatory
import StatusBoard.Proofs.Json.Records
import StatusBoard.Proofs.Store.Decoding
import StatusBoard.Report
import StatusBoard.Resource
set_option autoImplicit false

/-!
# Condition: what passes the checks

Each check of what callers send says yes to one shape and to no other.
-/

namespace StatusBoard

/-- One check after another passes if both do. -/
theorem check_bind_eq_ok_iff {ε β : Type} {x : Except ε Unit} {y : Except ε β} {b : β} :
    (x >>= fun _ => y) = .ok b ↔ x = .ok () ∧ y = .ok b := by
  rw [bind_eq_ok_iff]
  exact ⟨fun ⟨⟨⟩, hx, hy⟩ => ⟨hx, hy⟩, fun ⟨hx, hy⟩ => ⟨(), hx, hy⟩⟩

theorem checkAll_eq_ok_iff {α ε : Type} {check : α → Except ε Unit} {items : List α} :
    checkAll check items = .ok () ↔ ∀ item ∈ items, check item = .ok () := by
  induction items with
  | nil => simp [checkAll]
  | cons item items ih =>
      rw [checkAll, check_bind_eq_ok_iff, List.forall_mem_cons, ih]

/-- The first item that does not pass gives the fault. -/
theorem checkAll_eq_error_iff {α ε : Type} {check : α → Except ε Unit} {items : List α} {e : ε} :
    checkAll check items = .error e ↔ ∃ before item after, items = before ++ item :: after ∧
      (∀ other ∈ before, check other = .ok ()) ∧ check item = .error e := by
  induction items with
  | nil => simp [checkAll]
  | cons first items ih =>
      rw [checkAll]
      cases hfirst : check first with
      | error found =>
          constructor
          · rintro ⟨⟩
            exact ⟨[], first, items, rfl, by simp, hfirst⟩
          · rintro ⟨before, item, after, hsplit, hpass, hfail⟩
            cases before with
            | nil =>
                obtain ⟨rfl, -⟩ := List.cons.inj hsplit
                exact hfirst.symm.trans hfail
            | cons other before =>
                obtain ⟨rfl, -⟩ := List.cons.inj hsplit
                cases hfirst.symm.trans (hpass _ List.mem_cons_self)
      | ok passed =>
          refine ih.trans ⟨?_, ?_⟩
          · rintro ⟨before, item, after, rfl, hpass, hfail⟩
            exact ⟨first :: before, item, after, rfl, List.forall_mem_cons.mpr ⟨hfirst, hpass⟩, hfail⟩
          · rintro ⟨before, item, after, hsplit, hpass, hfail⟩
            cases before with
            | nil =>
                obtain ⟨rfl, -⟩ := List.cons.inj hsplit
                cases hfirst.symm.trans hfail
            | cons other before =>
                obtain ⟨rfl, rfl⟩ := List.cons.inj hsplit
                exact ⟨before, item, after, rfl, (List.forall_mem_cons.mp hpass).2, hfail⟩

/-! ## Conditions -/

theorem checkConditionType_eq_ok_iff {type : String} :
    checkConditionType type = .ok () ↔ isPascalCase type = true := by
  unfold checkConditionType
  split <;> simp [*]

theorem checkConditionType_eq_error_iff {type : String} {e : ValidationError} :
    checkConditionType type = .error e ↔
      isPascalCase type = false ∧ e = .invalidConditionType type := by
  unfold checkConditionType
  split
  · simp [*]
  · simp [*, eq_comm]

/-- What an adapter may say of conditions, and what may be set for a resource: types of the right
shape, each of them once. -/
theorem checkInputs_eq_ok_iff {inputs : List ConditionInput} :
    checkInputs inputs = .ok () ↔
      (∀ c ∈ inputs, isPascalCase c.type = true) ∧ (inputs.map (·.type)).Nodup := by
  unfold checkInputs
  rw [check_bind_eq_ok_iff, checkAll_eq_ok_iff, ← firstRepeat?_nil_eq_none_iff]
  simp only [checkConditionType_eq_ok_iff]
  cases firstRepeat? (inputs.map (·.type)) [] <;> simp

/-- What is wrong with conditions is the first type of a wrong shape, or else the first type that
stands there a second time. -/
theorem checkInputs_eq_error_iff {inputs : List ConditionInput} {e : ValidationError} :
    checkInputs inputs = .error e ↔
      (∃ before c after, inputs = before ++ c :: after ∧
        (∀ other ∈ before, isPascalCase other.type = true) ∧ isPascalCase c.type = false ∧
        e = .invalidConditionType c.type) ∨
      (∀ c ∈ inputs, isPascalCase c.type = true) ∧
        ∃ before c after, inputs = before ++ c :: after ∧ (before.map (·.type)).Nodup ∧
          c.type ∈ before.map (·.type) ∧ e = .duplicateConditionType c.type := by
  unfold checkInputs
  cases hshapes : checkAll (fun c : ConditionInput => checkConditionType c.type) inputs with
  | error found =>
      have hwrong : ¬ ∀ c ∈ inputs, isPascalCase c.type = true := by
        simp only [← checkConditionType_eq_ok_iff, ← checkAll_eq_ok_iff, hshapes, reduceCtorEq,
          not_false_eq_true]
      rw [or_iff_left (fun h => hwrong h.1)]
      change .error found = Except.error e ↔ _
      rw [← hshapes, checkAll_eq_error_iff]
      simp only [checkConditionType_eq_ok_iff, checkConditionType_eq_error_iff]
  | ok passed =>
      have hright : ∀ c ∈ inputs, isPascalCase c.type = true := by
        simpa only [checkConditionType_eq_ok_iff] using checkAll_eq_ok_iff.mp hshapes
      rw [or_iff_right, and_iff_right hright]
      · dsimp only [bind, Except.bind]
        constructor
        · intro h
          split at h
          · rename_i type hrepeat
            cases h
            obtain ⟨before, after, hsplit, hnodup, htype⟩ :=
              (firstRepeat?_nil_eq_some_iff _ _).mp hrepeat
            obtain ⟨inBefore, rest, rfl, rfl, hrest⟩ := List.map_eq_append_iff.mp hsplit
            obtain ⟨c, inAfter, rfl, rfl, -⟩ := List.map_eq_cons_iff.mp hrest
            exact ⟨inBefore, c, inAfter, rfl, hnodup, htype, rfl⟩
          · cases h
        · rintro ⟨before, c, after, rfl, hnodup, htype, rfl⟩
          have hrepeat := (firstRepeat?_nil_eq_some_iff
            ((before ++ c :: after).map (·.type)) c.type).mpr
              ⟨before.map (·.type), after.map (·.type), by simp, hnodup, htype⟩
          rw [hrepeat]
      · rintro ⟨before, c, after, rfl, -, hwrong, -⟩
        rw [hright c (by simp)] at hwrong
        cases hwrong

theorem checkResourceConditions_eq_ok_iff {inputs : List ConditionInput} :
    checkResourceConditions inputs = .ok () ↔
      checkInputs inputs = .ok () ∧ ∀ c ∈ inputs, c.status.isDeterminate = true := by
  have hall : (∀ c ∈ inputs, c.status.isDeterminate = true) ↔
      inputs.find? (!·.status.isDeterminate) = none := by
    simp [List.find?_eq_none]
  unfold checkResourceConditions
  rw [check_bind_eq_ok_iff, hall]
  cases inputs.find? (!·.status.isDeterminate) <;> simp

/-! ## The gate -/

theorem passesMandatory_eq (conditions : List ConditionInput) (mandatory : List String) :
    passesMandatory conditions mandatory =
      if (shortfall conditions mandatory).isEmpty then .ok ()
      else .error (shortfall conditions mandatory) := rfl

theorem passesMandatory_eq_ok_iff_isEmpty {conditions : List ConditionInput}
    {mandatory : List String} :
    passesMandatory conditions mandatory = .ok () ↔
      (shortfall conditions mandatory).isEmpty = true := by
  rw [passesMandatory_eq]
  split <;> simp [*]

/-- The gate is passed if each mandatory type is there, and its status is known. -/
theorem passesMandatory_eq_ok_iff {conditions : List ConditionInput} {mandatory : List String} :
    passesMandatory conditions mandatory = .ok () ↔ ∀ type ∈ mandatory, ∃ c,
      conditions.find? (·.type = type) = some c ∧ c.status.isDeterminate = true := by
  rw [passesMandatory_eq_ok_iff_isEmpty, Rejection.isEmpty, Bool.and_eq_true, List.isEmpty_iff,
    List.isEmpty_iff, shortfall, List.filter_eq_nil_iff, List.filter_eq_nil_iff]
  refine forall_and.symm.trans (forall_congr' fun type => ?_)
  rw [← imp_and]
  refine imp_congr_right fun _ => ?_
  cases conditions.find? (·.type = type) <;> simp

/-- None of the conditions is of the type. -/
def ConditionInput.IsAbsent (conditions : List ConditionInput) (type : String) : Prop :=
  ∀ c ∈ conditions, c.type ≠ type

/-- One of the conditions is of the type, and says that nothing is known. -/
def ConditionInput.IsUnknown (conditions : List ConditionInput) (type : String) : Prop :=
  ∃ c ∈ conditions, c.type = type ∧ c.status = .unknown

/-- The reason tells all that conditions fall short of, each list in order, and is not empty. -/
structure Rejection.Accounts (reason : Rejection) (conditions : List ConditionInput)
    (IsMandatory : String → Prop) : Prop where
  sorted_missing : NameSet.Sorted reason.missing
  mem_missing : ∀ type, type ∈ reason.missing ↔
    IsMandatory type ∧ ConditionInput.IsAbsent conditions type
  sorted_indeterminate : NameSet.Sorted reason.indeterminate
  mem_indeterminate : ∀ type, type ∈ reason.indeterminate ↔
    IsMandatory type ∧ ConditionInput.IsUnknown conditions type
  not_empty : ¬ (reason.missing = [] ∧ reason.indeterminate = [])

theorem mem_missing_shortfall {conditions : List ConditionInput} {mandatory : List String}
    {type : String} : type ∈ (shortfall conditions mandatory).missing ↔
      type ∈ mandatory ∧ ConditionInput.IsAbsent conditions type := by
  simp [shortfall, ConditionInput.IsAbsent]

/-- Among conditions whose types differ, the one of a type is the first of it. -/
theorem mem_indeterminate_shortfall {conditions : List ConditionInput}
    (hnodup : (conditions.map (·.type)).Nodup) {mandatory : List String} {type : String} :
    type ∈ (shortfall conditions mandatory).indeterminate ↔
      type ∈ mandatory ∧ ConditionInput.IsUnknown conditions type := by
  rw [shortfall, List.mem_filter, ConditionInput.IsUnknown]
  refine and_congr_right fun _ => ?_
  cases hfind : conditions.find? (·.type = type) with
  | none =>
      have habsent : ∀ c ∈ conditions, c.type ≠ type := by simpa using hfind
      simp only [Bool.false_eq_true, false_iff, not_exists, not_and]
      exact fun c hc htype => absurd htype (habsent c hc)
  | some first =>
      have hfirst := List.mem_of_find?_eq_some hfind
      have htype : first.type = type := by simpa using List.find?_some hfind
      have hunknown : (!first.status.isDeterminate) = true ↔ first.status = .unknown := by
        simp [ConditionStatus.isDeterminate]
      refine hunknown.trans ⟨fun h => ⟨first, hfirst, htype, h⟩, ?_⟩
      rintro ⟨c, hc, hof, hstatus⟩
      cases List.inj_on_of_nodup_map hnodup hc hfirst (hof.trans htype.symm)
      exact hstatus

/-- The gate stays closed if some mandatory type is not there, or its status is not known. -/
theorem passesMandatory_ne_ok_iff {conditions : List ConditionInput}
    (hnodup : (conditions.map (·.type)).Nodup) {mandatory : List String} :
    passesMandatory conditions mandatory ≠ .ok () ↔ ∃ type ∈ mandatory,
      ConditionInput.IsAbsent conditions type ∨ ConditionInput.IsUnknown conditions type := by
  rw [ne_eq, passesMandatory_eq_ok_iff_isEmpty, Rejection.isEmpty, Bool.and_eq_true,
    List.isEmpty_iff, List.isEmpty_iff, Decidable.not_and_iff_or_not]
  simp only [List.eq_nil_iff_forall_not_mem, Classical.not_forall, Classical.not_not,
    mem_missing_shortfall, mem_indeterminate_shortfall hnodup, ← exists_or, ← and_or_left]

/-- What a report is discarded for is all that it falls short of. -/
theorem accounts_shortfall {conditions : List ConditionInput}
    (hnodup : (conditions.map (·.type)).Nodup) {mandatory : List String}
    (hsorted : NameSet.Sorted mandatory) (hclosed : passesMandatory conditions mandatory ≠ .ok ()) :
    (shortfall conditions mandatory).Accounts conditions (· ∈ mandatory) where
  sorted_missing := List.Pairwise.filter _ hsorted
  mem_missing := fun _ => mem_missing_shortfall
  sorted_indeterminate := List.Pairwise.filter _ hsorted
  mem_indeterminate := fun _ => mem_indeterminate_shortfall hnodup
  not_empty := by
    rintro ⟨hmissing, hindeterminate⟩
    apply hclosed
    rw [passesMandatory_eq_ok_iff_isEmpty, Rejection.isEmpty, hmissing, hindeterminate]
    rfl

/-! ## Reports and resources -/

theorem Report.validate_eq_ok_iff {r : Report} :
    r.validate = .ok () ↔ Text.isAllBlank r.adapter = false ∧ 0 ≤ r.observedGeneration ∧
      checkInputs r.conditions = .ok () := by
  unfold validate
  split
  · simp [*]
  · split
    · rename_i hnegative
      simp [Int64.not_le.mpr hnegative]
    · rename_i hblank hcounted
      simp [hblank, Int64.not_lt.mp hcounted]

/-- What is wrong with a report is its adapter, or else its generation, or else its conditions. -/
theorem Report.validate_eq_error_iff {r : Report} {e : ValidationError} :
    r.validate = .error e ↔
      (Text.isAllBlank r.adapter = true ∧ e = .emptyField "adapter") ∨
      (Text.isAllBlank r.adapter = false ∧ r.observedGeneration < 0 ∧
        e = .negativeGeneration r.observedGeneration) ∨
      (Text.isAllBlank r.adapter = false ∧ 0 ≤ r.observedGeneration ∧
        checkInputs r.conditions = .error e) := by
  unfold validate
  split
  · simp [*, eq_comm]
  · split
    · rename_i hblank hnegative
      simp [hblank, hnegative, Int64.not_le.mpr hnegative, eq_comm]
    · rename_i hblank hcounted
      simp [hblank, hcounted, Int64.not_lt.mp hcounted]

theorem NewResource.validate_eq_ok_iff {new : NewResource} :
    new.validate = .ok () ↔
      isResourceName new.name = true ∧ ∀ key ∈ Dict.keys new.labels, isLabelKey key = true := by
  have hkey : ∀ key, checkLabelKey key = .ok () ↔ isLabelKey key = true := by
    intro key
    unfold checkLabelKey
    split <;> simp [*]
  unfold validate
  split
  · rename_i hname
    simp only [checkAll_eq_ok_iff, hkey, hname, true_and]
  · rename_i hname
    simp [hname]

end StatusBoard

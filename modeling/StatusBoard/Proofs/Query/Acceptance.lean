import StatusBoard.Proofs.Query.Binding
import StatusBoard.Proofs.Query.Lookup
import StatusBoard.Service.Error
set_option autoImplicit false

/-!
# Query: which filters are accepted, and which fault wins

Several passes over a filter decide together whether there is a query for it: one looks for empty
groups, one for fields that nobody can ask for, one takes the conditions off the spine, and one
writes the clause of what is left, which is a filter of its own.  All that a sender has to know is
told here about the filter as it was sent: what it has to look like, and of two things that are
wrong with it the one that is reported.
-/

namespace StatusBoard

open StatusBoard.Filter (Expr Comparison Literal Relation Column ColumnType Target FilterFault
  Wanted labelStart conditionStart)

/-! ## The first item that is at fault -/

/-- One of the items is at fault and none of those before it. -/
inductive FirstFault {α β : Type} (faulty : α → β → Prop) : List α → β → Prop where
  | here {x : α} {items : List α} {b : β} (fault : faulty x b) : FirstFault faulty (x :: items) b
  | later {x : α} {items : List α} {b : β} (sound : ∀ b, ¬ faulty x b)
      (rest : FirstFault faulty items b) : FirstFault faulty (x :: items) b

namespace FirstFault

variable {α β : Type} {faulty : α → β → Prop} {x : α} {items more : List α} {b : β}

@[simp] theorem nil_iff : FirstFault faulty [] b ↔ False :=
  ⟨nofun, False.elim⟩

theorem cons_iff : FirstFault faulty (x :: items) b ↔
    faulty x b ∨ (∀ b, ¬ faulty x b) ∧ FirstFault faulty items b := by
  constructor
  · intro h
    cases h with
    | here fault => exact .inl fault
    | later sound rest => exact .inr ⟨sound, rest⟩
  · rintro (fault | ⟨sound, rest⟩)
    · exact .here fault
    · exact .later sound rest

theorem singleton_iff : FirstFault faulty [x] b ↔ faulty x b := by
  simp [cons_iff]

theorem exists_mem (h : FirstFault faulty items b) : ∃ x ∈ items, faulty x b := by
  induction h with
  | here fault => exact ⟨_, List.mem_cons_self, fault⟩
  | later _ _ ih =>
      obtain ⟨x, hx, fault⟩ := ih
      exact ⟨x, List.mem_cons_of_mem _ hx, fault⟩

/-- There is no first fault exactly if there is none at all. -/
theorem forall_not_iff :
    (∀ b, ¬ FirstFault faulty items b) ↔ ∀ x ∈ items, ∀ b, ¬ faulty x b := by
  constructor
  · intro h
    induction items with
    | nil => simp
    | cons x items ih =>
        have hx : ∀ b, ¬ faulty x b := fun b fault => h b (.here fault)
        exact List.forall_mem_cons.mpr ⟨hx, ih fun b rest => h b (.later hx rest)⟩
  · intro h b hfirst
    obtain ⟨x, hx, fault⟩ := hfirst.exists_mem
    exact h x hx b fault

theorem append_iff : FirstFault faulty (items ++ more) b ↔
    FirstFault faulty items b ∨ (∀ b, ¬ FirstFault faulty items b) ∧ FirstFault faulty more b := by
  induction items with
  | nil => simp
  | cons x items ih =>
      rw [List.cons_append, cons_iff, ih, cons_iff]
      simp only [forall_not_iff, List.forall_mem_cons]
      tauto

/-- Items that are never at fault may be left out. -/
theorem filter_iff {keep : α → Bool} (h : ∀ x ∈ items, keep x = false → ∀ b, ¬ faulty x b) :
    FirstFault faulty (items.filter keep) b ↔ FirstFault faulty items b := by
  induction items with
  | nil => rfl
  | cons x items ih =>
      obtain ⟨hx, hitems⟩ := List.forall_mem_cons.mp h
      rw [cons_iff, ← ih hitems, List.filter_cons]
      split
      · exact cons_iff
      · rename_i hkeep
        have hsound := hx ((Bool.not_eq_true _).mp hkeep)
        exact ⟨fun rest => .inr ⟨hsound, rest⟩, fun h => (h.resolve_left (hsound b)).2⟩

end FirstFault

/-! ## What fields ask for -/

theorem Text.eq_append_of_afterChars? {start s rest : List Char}
    (h : afterChars? start s = some rest) : s = start ++ rest := by
  induction start generalizing s with
  | nil => exact Option.some.inj h
  | cons c start ih =>
      cases s with
      | nil => cases h
      | cons d s =>
          rw [afterChars?] at h
          split at h
          · rename_i heq
            rw [heq, List.cons_append, ← ih h]
          · cases h

theorem Text.eq_append_of_after? {start s rest : String} (h : after? start s = some rest) :
    s = start ++ rest := by
  obtain ⟨chars, hchars, rfl⟩ := Option.map_eq_some_iff.mp h
  apply String.toList_injective
  rw [String.toList_append, String.toList_ofList]
  exact eq_append_of_afterChars? hchars

namespace Filter

/-- What a field asks for: a column by its name, a label by its key, or a condition of any type. -/
inductive Asks : String → Target → Prop where
  | column (column : Column) : Asks column.text (.column column)
  | label (key : String) (valid : isLabelKey key = true) : Asks (labelStart ++ key) (.label key)
  | condition (type : String) : Asks (conditionStart ++ type) (.condition type)

theorem ofField_column (column : Column) :
    Target.ofField column.text = .ok (.column column) := by
  cases column <;> decide +kernel

theorem ofField_eq_ok_iff {field : String} {target : Target} :
    Target.ofField field = .ok target ↔ Asks field target := by
  constructor
  · intro h
    unfold Target.ofField at h
    split at h
    · cases h
    split at h
    · rename_i column hcolumn
      cases h
      have hname : column.text = field := by
        simpa using List.find?_some hcolumn
      exact hname ▸ .column column
    split at h
    · rename_i key hkey
      split at h
      · rename_i hvalid
        cases h
        exact Text.eq_append_of_after? hkey ▸ .label key hvalid
      · cases h
    split at h
    · rename_i type htype
      cases h
      exact Text.eq_append_of_after? htype ▸ .condition type
    · cases h
  · intro h
    cases h with
    | column column => exact ofField_column column
    | label key valid => exact ofField_label valid
    | condition type => exact ofField_condition type

theorem Asks.unique {field : String} {target other : Target} (h : Asks field target)
    (h' : Asks field other) : target = other :=
  Except.ok.inj ((ofField_eq_ok_iff.mpr h).symm.trans (ofField_eq_ok_iff.mpr h'))

theorem Asks.field_eq {field type : String} (h : Asks field (.condition type)) :
    field = conditionStart ++ type := by
  cases h
  rfl

/-- The field asks for something. -/
def InVocabulary (field : String) : Prop :=
  ∃ target, Asks field target

theorem inVocabulary_iff {field : String} :
    InVocabulary field ↔ (Target.ofField field).isOk = true := by
  unfold InVocabulary
  cases h : Target.ofField field with
  | ok target =>
      exact ⟨fun _ => rfl, fun _ => ⟨target, ofField_eq_ok_iff.mp h⟩⟩
  | error fault =>
      refine ⟨fun ⟨target, hasks⟩ => ?_, fun hok => nomatch hok⟩
      cases h.symm.trans (ofField_eq_ok_iff.mpr hasks)

instance (field : String) : Decidable (InVocabulary field) :=
  decidable_of_iff _ inVocabulary_iff.symm

/-- The comparison is one with a condition. -/
def Comparison.AsksCondition (c : Comparison) : Prop :=
  ∃ type, Asks c.field (.condition type)

theorem isCondition_iff {c : Comparison} :
    Target.isCondition c.field = true ↔ c.AsksCondition := by
  unfold Comparison.AsksCondition Target.isCondition
  split
  · rename_i type htarget
    exact ⟨fun _ => ⟨type, ofField_eq_ok_iff.mp htarget⟩, fun _ => rfl⟩
  · rename_i hother
    constructor
    · intro hfalse
      cases hfalse
    · rintro ⟨type, hasks⟩
      exact absurd (ofField_eq_ok_iff.mpr hasks) (hother type)

/-! ## Where comparisons stand -/

/-- A filter is part of another. -/
inductive Expr.Within (part : Expr) : Expr → Prop where
  | itself : Within part part
  | all {parts : List Expr} {e : Expr} (mem : e ∈ parts) (within : Within part e) :
      Within part (.all parts)
  | any {parts : List Expr} {e : Expr} (mem : e ∈ parts) (within : Within part e) :
      Within part (.any parts)
  | not {e : Expr} (within : Within part e) : Within part (.not e)

/-- Somewhere in the filter stands a conjunction or a disjunction of nothing. -/
def Expr.HasEmptyGroup (e : Expr) : Prop :=
  (Expr.all []).Within e ∨ (Expr.any []).Within e

mutual

/-- The parts of a filter that are reached through conjunctions only, from left to right. -/
def Expr.spine : Expr → List Expr
  | .compare c => [.compare c]
  | .all parts => spineOfList parts
  | .any parts => [.any parts]
  | .not part => [.not part]

def Expr.spineOfList : List Expr → List Expr
  | [] => []
  | part :: parts => part.spine ++ spineOfList parts

end

mutual

theorem Expr.hasEmptyGroup_iff : ∀ e : Expr, e.hasEmptyGroup = true ↔ e.HasEmptyGroup
  | .compare c => by
      refine ⟨nofun, ?_⟩
      rintro (h | h) <;> cases h
  | .all parts => by
      rw [hasEmptyGroup, Bool.or_eq_true, List.isEmpty_iff, anyEmptyGroup_iff parts]
      constructor
      · rintro (rfl | ⟨part, hpart, h | h⟩)
        · exact .inl .itself
        · exact .inl (.all hpart h)
        · exact .inr (.all hpart h)
      · rintro (h | h)
        · cases h with
          | itself => exact .inl rfl
          | all mem within => exact .inr ⟨_, mem, .inl within⟩
        · cases h with
          | all mem within => exact .inr ⟨_, mem, .inr within⟩
  | .any parts => by
      rw [hasEmptyGroup, Bool.or_eq_true, List.isEmpty_iff, anyEmptyGroup_iff parts]
      constructor
      · rintro (rfl | ⟨part, hpart, h | h⟩)
        · exact .inr .itself
        · exact .inl (.any hpart h)
        · exact .inr (.any hpart h)
      · rintro (h | h)
        · cases h with
          | any mem within => exact .inr ⟨_, mem, .inl within⟩
        · cases h with
          | itself => exact .inl rfl
          | any mem within => exact .inr ⟨_, mem, .inr within⟩
  | .not part => by
      rw [hasEmptyGroup, hasEmptyGroup_iff part]
      constructor
      · exact Or.imp .not .not
      · rintro (h | h)
        · cases h with
          | not within => exact .inl within
        · cases h with
          | not within => exact .inr within

theorem Expr.anyEmptyGroup_iff : ∀ parts : List Expr,
    anyEmptyGroup parts = true ↔ ∃ part ∈ parts, part.HasEmptyGroup
  | [] => by simp [anyEmptyGroup]
  | part :: parts => by
      rw [anyEmptyGroup, Bool.or_eq_true, hasEmptyGroup_iff part, anyEmptyGroup_iff parts,
        List.exists_mem_cons_iff]

end

mutual

/-- The comparisons of a filter are those of its spine. -/
theorem Expr.leaves_spine : ∀ e : Expr, e.spine.flatMap leaves = e.leaves
  | .compare c => by simp [spine, leaves]
  | .all parts => leaves_spineOfList parts
  | .any parts => by simp [spine]
  | .not part => by simp [spine]

theorem Expr.leaves_spineOfList : ∀ parts : List Expr,
    (spineOfList parts).flatMap leaves = leavesOfList parts
  | [] => rfl
  | part :: parts => by
      rw [spineOfList, List.flatMap_append, leaves_spine part, leaves_spineOfList parts,
        leavesOfList]

end

/-! ## What may be asked -/

/-- The literal is of the type of the column. -/
def Column.Takes (column : Column) (value : Literal) : Prop :=
  match column.type with
  | .text => ∃ text, value = .text text
  | .integer => ∃ int, value = .int int
  | .timestamp => ∃ text t, value = .text text ∧ Instant.parseStrict? text = some t

/-- What a comparison has to be like, depending on what its field asks for. -/
def Comparison.IsAskable (c : Comparison) : Target → Prop
  | .column column => column.Takes c.value ∧ (column = .id → c.relation = .eq ∨ c.relation = .ne)
  | .label _ => ∃ text, c.value = .text text
  | .condition type => c.relation = .eq ∧ isPascalCase type = true ∧
      ∃ status : ConditionStatus, c.value = .text status.word

/-- A filter that can be asked: all groups join something, all comparisons are of fields that ask
for something, in the way this is asked for, and those with conditions are on the spine. -/
structure Expr.IsAskable (e : Expr) : Prop where
  groups : ¬ e.HasEmptyGroup
  comparisons : ∀ c ∈ e.leaves, ∃ target, Asks c.field target ∧ c.IsAskable target
  conditions : ∀ part ∈ e.spine, ∀ c ∈ part.leaves, c.AsksCondition → part = .compare c

/-! ## What is reported -/

/-- A fault, and the only field that it is about. -/
structure Blame where
  fault : FilterFault
  field : String

/-- What is wrong with a part of the spine: a comparison with a condition that cannot be asked for
like this, or a disjunction or a negation with conditions in it, of which the first is named. -/
inductive SpineFault : Expr → Blame → Prop where
  | relation {c : Comparison} (asks : c.AsksCondition) (other : c.relation ≠ .eq) :
      SpineFault (.compare c) ⟨.unsupportedRelation c.field c.relation, c.field⟩
  | type {c : Comparison} {type : String} (asks : Asks c.field (.condition type))
      (relation : c.relation = .eq) (other : isPascalCase type = false) :
      SpineFault (.compare c) ⟨.invalidConditionType type, c.field⟩
  | status {c : Comparison} {type : String} (asks : Asks c.field (.condition type))
      (relation : c.relation = .eq) (valid : isPascalCase type = true)
      (other : ∀ status : ConditionStatus, c.value ≠ .text status.word) :
      SpineFault (.compare c) ⟨.invalidConditionStatus c.field c.value, c.field⟩
  | place {part : Expr} {before after : List Comparison} {c : Comparison}
      (group : ∀ c, part ≠ .compare c) (leaves : part.leaves = before ++ c :: after)
      (others : ∀ d ∈ before, ¬ d.AsksCondition) (asks : c.AsksCondition) :
      SpineFault part ⟨.conditionInDisjunction c.field, c.field⟩

/-- What a column wants to be compared with. -/
def Column.wanted (column : Column) : Wanted :=
  match column.type with
  | .text => .text
  | .integer => .integer
  | .timestamp => .timestamp

/-- What is wrong with a comparison with a column or with a label. -/
inductive LeafFault : Comparison → Blame → Prop where
  | label {c : Comparison} {key : String} (asks : Asks c.field (.label key))
      (other : ∀ text, c.value ≠ .text text) :
      LeafFault c ⟨.invalidLiteral c.field c.value .labelText, c.field⟩
  | literal {c : Comparison} {column : Column} (asks : Asks c.field (.column column))
      (other : ¬ column.Takes c.value) :
      LeafFault c ⟨.invalidLiteral c.field c.value column.wanted, c.field⟩
  | order {c : Comparison} (asks : Asks c.field (.column .id)) (takes : Column.id.Takes c.value)
      (other : c.relation ≠ .eq ∧ c.relation ≠ .ne) :
      LeafFault c ⟨.unsupportedRelation c.field c.relation, c.field⟩

/-- The fields that nobody can ask for, from left to right. -/
def Expr.rejected (e : Expr) : List String :=
  (e.leaves.map (·.field)).filter fun field => ¬ InVocabulary field

/-- Why a filter is refused, and the fields that are named: an empty group comes before everything
else, then come the fields that nobody can ask for, then the first fault on the spine, and then the
first fault of a comparison with a column or a label. -/
inductive Expr.IsRefused (e : Expr) : FilterFault → List String → Prop where
  | group (empty : e.HasEmptyGroup) : IsRefused e (.parse ⟨0, .emptyGroup⟩) []
  | fields (groups : ¬ e.HasEmptyGroup) (some : e.rejected ≠ []) :
      IsRefused e (.rejectedFields e.rejected) e.rejected
  | spine (groups : ¬ e.HasEmptyGroup) (none : e.rejected = []) {blame : Blame}
      (first : FirstFault SpineFault e.spine blame) : IsRefused e blame.fault [blame.field]
  | leaf (groups : ¬ e.HasEmptyGroup) (none : e.rejected = [])
      (sound : ∀ part ∈ e.spine, ∀ blame, ¬ SpineFault part blame) {blame : Blame}
      (first : FirstFault LeafFault e.leaves blame) : IsRefused e blame.fault [blame.field]

/-! ## Passes that report the first fault -/

/-- A pass fails exactly if one of the items is at fault, and it fails with the first such fault. -/
def Reports {α β : Type} (pass : Except FilterFault α) (faulty : β → Blame → Prop)
    (items : List β) : Prop :=
  ∀ fault, pass = .error fault ↔ ∃ field, FirstFault faulty items ⟨fault, field⟩

namespace Reports

variable {α β γ : Type} {pass : Except FilterFault α} {next : α → Except FilterFault γ}
  {faulty : β → Blame → Prop} {items more : List β}

theorem nil (a : α) : Reports (.ok a) faulty [] := by
  simp [Reports]

theorem exists_ok_iff (h : Reports pass faulty items) :
    (∃ a, pass = .ok a) ↔ ∀ x ∈ items, ∀ blame, ¬ faulty x blame := by
  rw [← FirstFault.forall_not_iff]
  cases hpass : pass with
  | ok a =>
      refine ⟨fun _ blame hfirst => ?_, fun _ => ⟨a, rfl⟩⟩
      cases hpass.symm.trans ((h blame.fault).mpr ⟨blame.field, hfirst⟩)
  | error fault =>
      obtain ⟨field, hfirst⟩ := (h fault).mp hpass
      exact ⟨nofun, fun hnone => absurd hfirst (hnone _)⟩

/-- A pass over some items, and after it one over more items. -/
theorem bind (h : Reports pass faulty items) (hnext : ∀ a, Reports (next a) faulty more) :
    Reports (pass >>= next) faulty (items ++ more) := by
  intro fault
  simp only [bind_eq_error_iff, FirstFault.append_iff, exists_or, h fault, hnext _ fault]
  refine or_congr_right ?_
  simp only [FirstFault.forall_not_iff, exists_and_left, exists_and_right, h.exists_ok_iff]

/-- What is done with the result of a pass reports nothing more. -/
theorem map (h : Reports pass faulty items) (f : α → γ) :
    Reports (do return f (← pass)) faulty items := by
  intro fault
  simp [bind_eq_error_iff, pure, Except.pure, h fault]

end Reports

/-! ## The fields that are named -/

theorem SpineFault.fields_eq {part : Expr} {blame : Blame} (h : SpineFault part blame) :
    blame.fault.fields = [blame.field] := by
  cases h with
  | relation => rfl
  | type hasks => rw [hasks.field_eq]; rfl
  | status => rfl
  | place => rfl

theorem LeafFault.fields_eq {c : Comparison} {blame : Blame} (h : LeafFault c blame) :
    blame.fault.fields = [blame.field] := by
  cases h <;> rfl

theorem fields_of_first {α : Type} {faulty : α → Blame → Prop} {items : List α} {blame : Blame}
    (hfields : ∀ {x blame}, faulty x blame → blame.fault.fields = [blame.field])
    (h : FirstFault faulty items blame) : blame.fault.fields = [blame.field] := by
  obtain ⟨x, -, hfault⟩ := h.exists_mem
  exact hfields hfault

/-! ## What is sound -/

theorem LeafFault.not_asksCondition {c : Comparison} {blame : Blame} (h : LeafFault c blame) :
    ¬ c.AsksCondition := by
  rintro ⟨type, hasks⟩
  cases h with
  | label hlabel => cases hasks.unique hlabel
  | literal hcolumn => cases hasks.unique hcolumn
  | order hcolumn => cases hasks.unique hcolumn

/-- Nothing is wrong with a comparison with a column or a label that is askable. -/
theorem forall_not_leafFault_iff {c : Comparison} {target : Target} (hasks : Asks c.field target)
    (hother : ¬ c.AsksCondition) : (∀ blame, ¬ LeafFault c blame) ↔ c.IsAskable target := by
  cases target with
  | column column =>
      constructor
      · intro h
        have htakes : column.Takes c.value :=
          by_contra fun hvalue => h _ (.literal hasks hvalue)
        refine ⟨htakes, ?_⟩
        rintro rfl
        by_contra hrelation
        exact h _ (.order hasks htakes (not_or.mp hrelation))
      · rintro ⟨htakes, hrelation⟩ blame hfault
        cases hfault with
        | label hlabel => cases hasks.unique hlabel
        | literal hcolumn hvalue =>
            cases hasks.unique hcolumn
            exact hvalue htakes
        | order hcolumn _ horder =>
            cases hasks.unique hcolumn
            exact (hrelation rfl).elim horder.1 horder.2
  | label key =>
      constructor
      · intro h
        by_contra hvalue
        exact h _ (.label hasks (not_exists.mp hvalue))
      · rintro ⟨text, hvalue⟩ blame hfault
        cases hfault with
        | label _ hnone => exact hnone text hvalue
        | literal hcolumn => cases hasks.unique hcolumn
        | order hcolumn => cases hasks.unique hcolumn
  | condition type => exact absurd ⟨type, hasks⟩ hother

/-- Nothing is wrong with a comparison with a condition that is askable. -/
theorem forall_not_spineFault_iff_of_condition {c : Comparison} {type : String}
    (hasks : Asks c.field (.condition type)) :
    (∀ blame, ¬ SpineFault (.compare c) blame) ↔ c.IsAskable (.condition type) := by
  constructor
  · intro h
    have hrelation : c.relation = .eq :=
      by_contra fun hother => h _ (.relation ⟨type, hasks⟩ hother)
    have hpascal : isPascalCase type = true := by
      by_contra hother
      exact h _ (.type hasks hrelation ((Bool.not_eq_true _).mp hother))
    refine ⟨hrelation, hpascal, ?_⟩
    by_contra hvalue
    exact h _ (.status hasks hrelation hpascal (not_exists.mp hvalue))
  · rintro ⟨hrelation, hpascal, status, hvalue⟩ blame hfault
    cases hfault with
    | relation _ hother => exact hother hrelation
    | type hother _ hnone =>
        cases hasks.unique hother
        exact nomatch hpascal.symm.trans hnone
    | status _ _ _ hnone => exact hnone status hvalue
    | place hgroup => exact hgroup c rfl

end Filter

open StatusBoard.Filter (Asks Blame SpineFault LeafFault Reports InVocabulary ofField_eq_ok_iff
  isCondition_iff fields_of_first)

theorem ConditionStatus.ofWord?_eq_none_iff {word : String} :
    ofWord? word = none ↔ ∀ status : ConditionStatus, word ≠ status.word := by
  constructor
  · rintro h status rfl
    cases h.symm.trans (ofWord?_word status)
  · intro h
    rw [Option.eq_none_iff_forall_ne_some]
    intro status hstatus
    exact h status (word_of_ofWord? hstatus).symm

theorem ConditionTest.of_eq_error_iff {type : String} {relation : Relation} {value : Literal}
    {fault : FilterFault} : ConditionTest.of type relation value = .error fault ↔
      (relation ≠ .eq ∧ fault = .unsupportedRelation (conditionStart ++ type) relation) ∨
      (relation = .eq ∧ isPascalCase type = false ∧ fault = .invalidConditionType type) ∨
      (relation = .eq ∧ isPascalCase type = true ∧
        (∀ status : ConditionStatus, value ≠ .text status.word) ∧
        fault = .invalidConditionStatus (conditionStart ++ type) value) := by
  unfold ConditionTest.of
  by_cases hrelation : relation = .eq
  · cases hpascal : isPascalCase type with
    | false => simp [hrelation, eq_comm]
    | true =>
        cases value with
        | text word =>
            cases hword : ConditionStatus.ofWord? word with
            | none =>
                have hother := ConditionStatus.ofWord?_eq_none_iff.mp hword
                simp [hrelation, hword, hother, eq_comm]
            | some status => simp [hrelation, ← ConditionStatus.word_of_ofWord? hword]
        | int value => simp [hrelation, eq_comm]
        | bool value => simp [hrelation, eq_comm]
  · have hfault : ∀ other : FilterFault, (Except.error other : Except FilterFault ConditionTest) =
        .error fault ↔ fault = other := fun other => by rw [Except.error.injEq, eq_comm]
    simp [hrelation, hfault]

namespace Split

theorem ofComparison_eq_error_iff {c : Comparison} {fault : FilterFault} :
    ofComparison c = .error fault ↔ ∃ field, SpineFault (.compare c) ⟨fault, field⟩ := by
  unfold ofComparison
  split
  · rename_i type htarget
    have hasks := ofField_eq_ok_iff.mp htarget
    have hof : ((do return ⟨none, [← ConditionTest.of type c.relation c.value]⟩) =
        (.error fault : Except FilterFault Split)) ↔
          ConditionTest.of type c.relation c.value = .error fault := by
      simp [bind_eq_error_iff, pure, Except.pure]
    rw [hof, ConditionTest.of_eq_error_iff, ← hasks.field_eq]
    constructor
    · rintro (⟨hrelation, rfl⟩ | ⟨hrelation, hpascal, rfl⟩ | ⟨hrelation, hpascal, hvalue, rfl⟩)
      · exact ⟨_, .relation ⟨type, hasks⟩ hrelation⟩
      · exact ⟨_, .type hasks hrelation hpascal⟩
      · exact ⟨_, .status hasks hrelation hpascal hvalue⟩
    · rintro ⟨field, h⟩
      cases h with
      | relation _ hrelation => exact .inl ⟨hrelation, rfl⟩
      | type hother hrelation hpascal =>
          cases hasks.unique hother
          exact .inr (.inl ⟨hrelation, hpascal, rfl⟩)
      | status hother hrelation hpascal hvalue =>
          cases hasks.unique hother
          exact .inr (.inr ⟨hrelation, hpascal, hvalue, rfl⟩)
      | place hgroup => exact absurd rfl (hgroup c)
  · rename_i hother
    have hnone : ∀ {type}, ¬ Asks c.field (.condition type) :=
      fun hasks => hother _ (ofField_eq_ok_iff.mpr hasks)
    constructor
    · intro hok
      cases hok
    · rintro ⟨field, h⟩
      cases h with
      | relation hasks => exact absurd hasks.choose_spec hnone
      | type hasks => exact absurd hasks hnone
      | status hasks => exact absurd hasks hnone
      | place hgroup => exact absurd rfl (hgroup c)

variable {part : Expr} {blame : Blame} {fault : FilterFault}

theorem find?_isCondition_iff {leaves : List Comparison} {c : Comparison} :
    leaves.find? (fun c => Target.isCondition c.field) = some c ↔
      ∃ before after, leaves = before ++ c :: after ∧
        (∀ d ∈ before, ¬ d.AsksCondition) ∧ c.AsksCondition := by
  rw [List.find?_eq_some_iff_append, isCondition_iff]
  simp only [Bool.not_eq_true', ← Bool.not_eq_true, isCondition_iff]
  constructor
  · rintro ⟨hasks, before, after, hleaves, hothers⟩
    exact ⟨before, after, hleaves, hothers, hasks⟩
  · rintro ⟨before, after, hleaves, hothers, hasks⟩
    exact ⟨hasks, before, after, hleaves, hothers⟩

/-- A group on the spine is at fault for the first of the conditions in it. -/
theorem spineFault_of_group (hgroup : ∀ c, part ≠ .compare c) : SpineFault part blame ↔
    ∃ c, part.leaves.find? (fun c => Target.isCondition c.field) = some c ∧
      ⟨.conditionInDisjunction c.field, c.field⟩ = blame := by
  simp only [find?_isCondition_iff]
  constructor
  · intro h
    cases h with
    | relation => exact absurd rfl (hgroup _)
    | type => exact absurd rfl (hgroup _)
    | status => exact absurd rfl (hgroup _)
    | place _ hleaves hothers hasks => exact ⟨_, ⟨_, _, hleaves, hothers, hasks⟩, rfl⟩
  · rintro ⟨c, ⟨before, after, hleaves, hothers, hasks⟩, rfl⟩
    exact .place hgroup hleaves hothers hasks

theorem forall_not_spineFault_iff_of_group (hgroup : ∀ c, part ≠ .compare c) :
    (∀ blame, ¬ SpineFault part blame) ↔ ∀ c ∈ part.leaves, ¬ c.AsksCondition := by
  simp only [spineFault_of_group hgroup, ← isCondition_iff, ← List.find?_eq_none,
    Option.eq_none_iff_forall_ne_some]
  exact ⟨fun h c hc => h _ ⟨c, hc, rfl⟩, fun h blame ⟨c, hc, _⟩ => h c hc⟩

/-- Nothing is wrong with a part of the spine exactly if a condition in it is the part itself, and
askable. -/
theorem forall_not_spineFault_iff : (∀ blame, ¬ SpineFault part blame) ↔
    ∀ c ∈ part.leaves, ∀ type, Asks c.field (.condition type) →
      part = .compare c ∧ c.IsAskable (.condition type) := by
  by_cases hgroup : ∀ c, part ≠ .compare c
  · rw [forall_not_spineFault_iff_of_group hgroup]
    refine forall₂_congr fun c _ => ⟨fun h type hasks => absurd ⟨type, hasks⟩ h, ?_⟩
    rintro h ⟨type, hasks⟩
    exact hgroup c (h type hasks).1
  · obtain ⟨c, hc⟩ := not_forall.mp hgroup
    obtain rfl := not_not.mp hc
    rw [Expr.leaves, List.forall_mem_singleton]
    by_cases hcondition : c.AsksCondition
    · obtain ⟨type, hasks⟩ := hcondition
      rw [Filter.forall_not_spineFault_iff_of_condition hasks]
      refine ⟨fun h other hother => ?_, fun h => (h type hasks).2⟩
      cases hasks.unique hother
      exact ⟨rfl, h⟩
    · refine ⟨fun _ type hasks => absurd ⟨type, hasks⟩ hcondition, fun _ blame hfault => ?_⟩
      cases hfault with
      | relation hasks => exact hcondition hasks
      | type hasks => exact hcondition ⟨_, hasks⟩
      | status hasks => exact hcondition ⟨_, hasks⟩
      | place hgroup => exact hgroup c rfl

theorem ofOffSpine_eq_error_iff (hgroup : ∀ c, part ≠ .compare c) :
    ofOffSpine part = .error fault ↔ ∃ field, SpineFault part ⟨fault, field⟩ := by
  simp only [spineFault_of_group hgroup]
  unfold ofOffSpine
  cases part.leaves.find? fun c => Target.isCondition c.field with
  | some c => simp
  | none => simp

mutual

/-- Splitting a filter fails with the first fault on its spine. -/
theorem reports_ofExpr : ∀ e : Expr, Reports (ofExpr e) SpineFault e.spine
  | .compare c => by
      intro fault
      simp only [Expr.spine, FirstFault.singleton_iff]
      exact ofComparison_eq_error_iff
  | .all parts => (reports_ofParts parts).map _
  | .any parts => by
      intro fault
      simp only [Expr.spine, FirstFault.singleton_iff]
      exact ofOffSpine_eq_error_iff nofun
  | .not part => by
      intro fault
      simp only [Expr.spine, FirstFault.singleton_iff]
      exact ofOffSpine_eq_error_iff nofun

theorem reports_ofParts : ∀ parts : List Expr,
    Reports (ofParts parts) SpineFault (Expr.spineOfList parts)
  | [] => .nil _
  | part :: parts => (reports_ofExpr part).bind fun _ => (reports_ofParts parts).map _

end

end Split

/-! ## The clause of what is left -/

namespace Clause

theorem columnParam_eq_error_iff {column : Column} {c : Comparison} {fault : FilterFault} :
    columnParam column c = .error fault ↔
      ¬ column.Takes c.value ∧ .invalidLiteral c.field c.value column.wanted = fault := by
  unfold columnParam Column.Takes Column.wanted
  cases htype : column.type with
  | text => cases hvalue : c.value <;> simp
  | integer => cases hvalue : c.value <;> simp
  | timestamp =>
      cases hvalue : c.value with
      | text value => cases hparse : Instant.parseStrict? value <;> simp [hparse]
      | int value => simp
      | bool value => simp

theorem exists_columnParam_iff {column : Column} {c : Comparison} :
    (∃ param, columnParam column c = .ok param) ↔ column.Takes c.value := by
  cases hparam : columnParam column c with
  | ok param =>
      refine ⟨fun _ => by_contra fun hother => ?_, fun _ => ⟨param, rfl⟩⟩
      cases hparam.symm.trans (columnParam_eq_error_iff.mpr ⟨hother, rfl⟩)
  | error fault =>
      exact ⟨nofun, fun htakes => absurd htakes (columnParam_eq_error_iff.mp hparam).1⟩

theorem isOrdering_iff {relation : Relation} :
    relation.isOrdering = true ↔ relation ≠ .eq ∧ relation ≠ .ne := by
  cases relation <;> simp [Relation.isOrdering]

theorem ofComparison_eq_error_iff {c : Comparison} (hasks : InVocabulary c.field)
    (hother : ¬ c.AsksCondition) {fault : FilterFault} :
    Clause.ofComparison c = .error fault ↔ ∃ field, LeafFault c ⟨fault, field⟩ := by
  obtain ⟨target, hasks⟩ := hasks
  have htarget := ofField_eq_ok_iff.mpr hasks
  cases target with
  | column column =>
      have hfails : Clause.ofComparison c = .error fault ↔
          (¬ column.Takes c.value ∧ .invalidLiteral c.field c.value column.wanted = fault) ∨
          (column.Takes c.value ∧ column = .id ∧ (c.relation ≠ .eq ∧ c.relation ≠ .ne) ∧
            .unsupportedRelation c.field c.relation = fault) := by
        have horder : ∀ param : Param,
            ((if c.relation.isOrdering && column = .id then
                .error (.unsupportedRelation c.field c.relation)
              else return (.column column c.relation, [param]) :
                Except FilterFault (Bound Clause)) = .error fault) ↔
              column = .id ∧ (c.relation ≠ .eq ∧ c.relation ≠ .ne) ∧
                .unsupportedRelation c.field c.relation = fault := by
          intro param
          rw [← isOrdering_iff]
          cases c.relation.isOrdering with
          | false => simp [pure, Except.pure]
          | true => by_cases hid : column = .id <;> simp [hid, pure, Except.pure]
        simp only [Clause.ofComparison, htarget, bind_eq_error_iff, columnParam_eq_error_iff,
          horder, exists_and_right, exists_columnParam_iff]
      rw [hfails]
      constructor
      · rintro (⟨hvalue, rfl⟩ | ⟨htakes, rfl, hrelation, rfl⟩)
        · exact ⟨_, .literal hasks hvalue⟩
        · exact ⟨_, .order hasks htakes hrelation⟩
      · rintro ⟨field, h⟩
        cases h with
        | label hlabel => cases hasks.unique hlabel
        | literal hcolumn hvalue =>
            cases hasks.unique hcolumn
            exact .inl ⟨hvalue, rfl⟩
        | order hcolumn htakes hrelation =>
            cases hasks.unique hcolumn
            exact .inr ⟨htakes, rfl, hrelation, rfl⟩
  | label key =>
      have hfails : Clause.ofComparison c = .error fault ↔
          (∀ text, c.value ≠ .text text) ∧
            .invalidLiteral c.field c.value .labelText = fault := by
        simp only [Clause.ofComparison, htarget]
        cases c.value <;> simp
      rw [hfails]
      constructor
      · rintro ⟨hvalue, rfl⟩
        exact ⟨_, .label hasks hvalue⟩
      · rintro ⟨field, h⟩
        cases h with
        | label _ hvalue => exact ⟨hvalue, rfl⟩
        | literal hcolumn => cases hasks.unique hcolumn
        | order hcolumn => cases hasks.unique hcolumn
  | condition type => exact absurd ⟨type, hasks⟩ hother

mutual

/-- The clause of a filter without conditions fails with the first fault of its comparisons. -/
theorem reports_ofExpr : ∀ e : Expr,
    (∀ c ∈ e.leaves, InVocabulary c.field ∧ ¬ c.AsksCondition) →
    Reports (Clause.ofExpr e) LeafFault e.leaves
  | .compare c, h => by
      obtain ⟨hasks, hother⟩ := h c List.mem_cons_self
      intro fault
      simp only [Expr.leaves, FirstFault.singleton_iff]
      exact ofComparison_eq_error_iff hasks hother
  | .all parts, h => (reports_ofParts parts h).map _
  | .any parts, h => (reports_ofParts parts h).map _
  | .not part, h => (reports_ofExpr part h).map _

theorem reports_ofParts : ∀ parts : List Expr,
    (∀ c ∈ Expr.leavesOfList parts, InVocabulary c.field ∧ ¬ c.AsksCondition) →
    Reports (Clause.ofParts parts) LeafFault (Expr.leavesOfList parts)
  | [], _ => .nil _
  | part :: parts, h => by
      obtain ⟨hpart, hparts⟩ := List.forall_mem_append.mp h
      exact (reports_ofExpr part hpart).bind fun _ => (reports_ofParts parts hparts).map _

end

end Clause

/-! ## Filters -/

namespace Query

variable {e : Expr}

theorem rejected_eq (e : Expr) : e.rejected =
    (e.leaves.map (·.field)).filter fun field => !(Target.ofField field).isOk := by
  refine List.filter_congr fun field _ => ?_
  simp [Filter.inVocabulary_iff]

theorem inVocabulary_of_rejected (h : e.rejected = []) : ∀ c ∈ e.leaves, InVocabulary c.field := by
  intro c hc
  have hfield := List.filter_eq_nil_iff.mp h c.field (List.mem_map_of_mem hc)
  simpa using hfield

theorem ofExpr_of_group (hgroup : e.HasEmptyGroup) :
    ofExpr e = .error (.parse ⟨0, .emptyGroup⟩) := by
  simp only [ofExpr, e.hasEmptyGroup_iff.mpr hgroup, if_true]

theorem ofExpr_of_rejected (hgroups : ¬ e.HasEmptyGroup) (hrejected : e.rejected ≠ []) :
    ofExpr e = .error (.rejectedFields e.rejected) := by
  simp only [ofExpr, ← rejected_eq, e.hasEmptyGroup_iff, hgroups, List.isEmpty_iff, hrejected,
    if_false]

theorem rejected_of_askable (h : e.IsAskable) : e.rejected = [] := by
  refine List.filter_eq_nil_iff.mpr fun field hfield => ?_
  obtain ⟨c, hc, rfl⟩ := List.mem_map.mp hfield
  obtain ⟨target, hasks, -⟩ := h.comparisons c hc
  have hvocabulary : InVocabulary c.field := ⟨target, hasks⟩
  simpa using hvocabulary

/-- Past the empty groups and the fields, a filter is split, and a clause is written of the rest. -/
theorem ofExpr_eq (hgroups : ¬ e.HasEmptyGroup) (hrejected : e.rejected = []) :
    ofExpr e = (do
      let split ← Split.ofExpr e
      let (clauses, params) ← Clause.ofParts split.rest.toList
      return ⟨clauses ++ split.tests.map fun _ => .condition,
        params ++ split.tests.flatMap (·.params)⟩) := by
  simp only [ofExpr, ← rejected_eq, e.hasEmptyGroup_iff, hgroups, hrejected, List.isEmpty_nil,
    if_false, if_true]
  refine congrArg _ (funext fun split => ?_)
  cases split.rest with
  | none => rfl
  | some rest =>
      simp only [Option.toList_some, Clause.ofParts]
      cases Clause.ofExpr rest <;> simp [bind, Except.bind, pure, Except.pure, ofBound]

theorem reports_rest (hrejected : e.rejected = []) {split : Split}
    (hsplit : Split.ofExpr e = .ok split) :
    Reports (Clause.ofParts split.rest.toList) LeafFault e.leaves := by
  have hvocabulary := inVocabulary_of_rejected hrejected
  obtain ⟨hleaves, -⟩ := Split.keeps_ofExpr e split hsplit
  have hrest : ∀ c ∈ Expr.leavesOfList split.rest.toList,
      InVocabulary c.field ∧ ¬ c.AsksCondition := by
    intro c hc
    rw [hleaves, List.mem_filter, Bool.not_eq_true', ← Bool.not_eq_true, isCondition_iff] at hc
    exact ⟨hvocabulary c hc.1, hc.2⟩
  intro fault
  rw [Clause.reports_ofParts _ hrest fault, hleaves]
  refine exists_congr fun field => FirstFault.filter_iff ?_
  -- no fault of a comparison with a column or a label is one of a comparison with a condition
  intro c _ hkeep blame hfault
  exact hfault.not_asksCondition (isCondition_iff.mp (by simpa using hkeep))

/-- Which fault is reported past the empty groups and the fields. -/
theorem ofExpr_eq_error_iff (hgroups : ¬ e.HasEmptyGroup) (hrejected : e.rejected = [])
    {fault : FilterFault} : ofExpr e = .error fault ↔
      (∃ field, FirstFault SpineFault e.spine ⟨fault, field⟩) ∨
      (∀ part ∈ e.spine, ∀ blame, ¬ SpineFault part blame) ∧
        ∃ field, FirstFault LeafFault e.leaves ⟨fault, field⟩ := by
  rw [ofExpr_eq hgroups hrejected, bind_eq_error_iff, Split.reports_ofExpr e fault,
    ← (Split.reports_ofExpr e).exists_ok_iff]
  refine or_congr_right ⟨?_, ?_⟩
  · rintro ⟨split, hsplit, h⟩
    exact ⟨⟨split, hsplit⟩, ((reports_rest hrejected hsplit).map _ fault).mp h⟩
  · rintro ⟨⟨split, hsplit⟩, h⟩
    exact ⟨split, hsplit, ((reports_rest hrejected hsplit).map _ fault).mpr h⟩

/-- The faults that make a filter fail are those that are reported, with the fields named. -/
theorem isRefused_iff {fault : FilterFault} {fields : List String} :
    e.IsRefused fault fields ↔ ofExpr e = .error fault ∧ fault.fields = fields := by
  by_cases hgroups : e.HasEmptyGroup
  · rw [ofExpr_of_group hgroups, Except.error.injEq]
    constructor
    · intro h
      cases h with
      | group => exact ⟨rfl, rfl⟩
      | fields hnone => exact absurd hgroups hnone
      | spine hnone => exact absurd hgroups hnone
      | leaf hnone => exact absurd hgroups hnone
    · rintro ⟨rfl, rfl⟩
      exact .group hgroups
  by_cases hrejected : e.rejected = []
  · rw [ofExpr_eq_error_iff hgroups hrejected]
    constructor
    · intro h
      cases h with
      | group hgroup => exact absurd hgroup hgroups
      | fields _ hsome => exact absurd hrejected hsome
      | spine _ _ hfirst => exact ⟨.inl ⟨_, hfirst⟩, fields_of_first SpineFault.fields_eq hfirst⟩
      | leaf _ _ hsound hfirst =>
          exact ⟨.inr ⟨hsound, _, hfirst⟩, fields_of_first LeafFault.fields_eq hfirst⟩
    · rintro ⟨⟨field, hfirst⟩ | ⟨hsound, field, hfirst⟩, rfl⟩
      · rw [fields_of_first SpineFault.fields_eq hfirst]
        exact .spine hgroups hrejected hfirst
      · rw [fields_of_first LeafFault.fields_eq hfirst]
        exact .leaf hgroups hrejected hsound hfirst
  · rw [ofExpr_of_rejected hgroups hrejected, Except.error.injEq]
    constructor
    · intro h
      cases h with
      | group hgroup => exact absurd hgroup hgroups
      | fields => exact ⟨rfl, rfl⟩
      | spine _ hnone => exact absurd hnone hrejected
      | leaf _ hnone => exact absurd hnone hrejected
    · rintro ⟨rfl, rfl⟩
      exact .fields hgroups hrejected

/-- Nothing is wrong with the comparisons of a filter and with its spine exactly if the comparisons
are askable, and those with conditions are on the spine. -/
theorem forall_sound_iff (hrejected : e.rejected = []) :
    (∀ part ∈ e.spine, ∀ blame, ¬ SpineFault part blame) ∧
        (∀ c ∈ e.leaves, ∀ blame, ¬ LeafFault c blame) ↔
      (∀ c ∈ e.leaves, ∃ target, Asks c.field target ∧ c.IsAskable target) ∧
        ∀ part ∈ e.spine, ∀ c ∈ part.leaves, c.AsksCondition → part = .compare c := by
  simp only [Split.forall_not_spineFault_iff]
  constructor
  · rintro ⟨hspine, hleaves⟩
    refine ⟨fun c hc => ?_, ?_⟩
    · obtain ⟨target, hasks⟩ := inVocabulary_of_rejected hrejected c hc
      by_cases hcondition : c.AsksCondition
      · obtain ⟨type, htype⟩ := hcondition
        obtain ⟨part, hpart, hmem⟩ := List.mem_flatMap.mp (e.leaves_spine ▸ hc)
        exact ⟨_, htype, (hspine part hpart c hmem type htype).2⟩
      · have hsound := Filter.forall_not_leafFault_iff hasks hcondition
        exact ⟨target, hasks, hsound.mp (hleaves c hc)⟩
    · rintro part hpart c hc ⟨type, hasks⟩
      exact (hspine part hpart c hc type hasks).1
  · rintro ⟨hleaves, hplaces⟩
    refine ⟨fun part hpart c hc type hasks => ?_, fun c hc blame hfault => ?_⟩
    · have hmem : c ∈ e.leaves := e.leaves_spine ▸ List.mem_flatMap.mpr ⟨part, hpart, hc⟩
      obtain ⟨target, htarget, haskable⟩ := hleaves c hmem
      cases hasks.unique htarget
      exact ⟨hplaces part hpart c hc ⟨type, hasks⟩, haskable⟩
    · obtain ⟨target, hasks, haskable⟩ := hleaves c hc
      have hsound := Filter.forall_not_leafFault_iff hasks hfault.not_asksCondition
      exact hsound.mpr haskable blame hfault

/-- There is a query for a filter exactly if it is askable; and it is refused with a fault and
callers are told of some fields exactly if these are the ones that win. -/
theorem ofExpr_decides (e : Expr) :
    ((∃ q, ofExpr e = .ok q) ↔ e.IsAskable) ∧
    ∀ fault fields, ofExpr e = .error fault ∧ (ServiceError.filter fault).fields = fields ↔
      e.IsRefused fault fields := by
  refine ⟨⟨?_, fun h => ?_⟩, fun fault fields => isRefused_iff.symm⟩
  · rintro ⟨q, hq⟩
    have hrefused : ∀ fault fields, ¬ e.IsRefused fault fields := by
      intro fault fields h
      cases hq.symm.trans (isRefused_iff.mp h).1
    have hgroups : ¬ e.HasEmptyGroup := fun h => hrefused _ _ (.group h)
    have hrejected : e.rejected = [] :=
      Decidable.byContradiction fun h => hrefused _ _ (.fields hgroups h)
    have hspine : ∀ part ∈ e.spine, ∀ blame, ¬ SpineFault part blame :=
      FirstFault.forall_not_iff.mp fun _ h => hrefused _ _ (.spine hgroups hrejected h)
    have hleaves : ∀ c ∈ e.leaves, ∀ blame, ¬ LeafFault c blame :=
      FirstFault.forall_not_iff.mp fun _ h => hrefused _ _ (.leaf hgroups hrejected hspine h)
    obtain ⟨hcomparisons, hconditions⟩ := (forall_sound_iff hrejected).mp ⟨hspine, hleaves⟩
    exact ⟨hgroups, hcomparisons, hconditions⟩
  · have hrejected := rejected_of_askable h
    obtain ⟨hspine, hleaves⟩ :=
      (forall_sound_iff hrejected).mpr ⟨h.comparisons, h.conditions⟩
    cases hquery : ofExpr e with
    | ok q => exact ⟨q, rfl⟩
    | error fault =>
        exfalso
        obtain ⟨field, hfirst⟩ | ⟨-, field, hfirst⟩ :=
          (ofExpr_eq_error_iff h.groups hrejected).mp hquery
        · exact FirstFault.forall_not_iff.mpr hspine _ hfirst
        · exact FirstFault.forall_not_iff.mpr hleaves _ hfirst

end Query
end StatusBoard

import StatusBoard.Proofs.Query.Truth
import Mathlib.Algebra.GroupWithZero.Nat
import Mathlib.Data.List.Forall2
set_option autoImplicit false

/-!
# Query: values are bound and not written

The text of a query depends on the shape of its filter, on the relations and on what kind of thing
each field asks for, and on nothing else.  All that its sender chooses freely is passed as values,
one for each question mark of the text.
-/

namespace StatusBoard

open StatusBoard.Filter (Expr Comparison Literal Relation Column ColumnType Target FilterFault)

/-! ## Filters of one shape -/

namespace Filter

/-- Two fields ask for the same column, or both for a label, or both for a condition. -/
inductive Target.Alike : Target → Target → Prop where
  | column (column : Column) : Alike (.column column) (.column column)
  | label (key key' : String) : Alike (.label key) (.label key')
  | condition (type type' : String) : Alike (.condition type) (.condition type')

/-- Two comparisons have the same relation, and their fields ask for the same kind of thing. -/
structure Comparison.Alike (c c' : Comparison) : Prop where
  relation : c.relation = c'.relation
  target : ∃ t t', Target.ofField c.field = .ok t ∧ Target.ofField c'.field = .ok t' ∧ t.Alike t'

/-- Two filters have the same shape, and their comparisons are alike one by one. -/
inductive Expr.Alike : Expr → Expr → Prop where
  | compare {c c' : Comparison} (alike : c.Alike c') : Alike (.compare c) (.compare c')
  | all {parts parts' : List Expr} (alike : List.Forall₂ Alike parts parts') :
      Alike (.all parts) (.all parts')
  | any {parts parts' : List Expr} (alike : List.Forall₂ Alike parts parts') :
      Alike (.any parts) (.any parts')
  | not {part part' : Expr} (alike : Alike part part') : Alike (.not part) (.not part')

end Filter

/-! ## Texts depend on shapes -/

namespace Clause

theorem eq_of_comparison {c c' : Comparison} (halike : c.Alike c') {clause clause' : Clause}
    {params params' : List Param} (h : Clause.ofComparison c = .ok (clause, params))
    (h' : Clause.ofComparison c' = .ok (clause', params')) : clause = clause' := by
  obtain ⟨hrelation, t, t', ht, ht', htargets⟩ := halike
  simp only [ofComparison, ht] at h
  simp only [ofComparison, ht', ← hrelation] at h'
  cases htargets with
  | column column =>
      obtain ⟨param, -, h⟩ := bind_eq_ok_iff.mp h
      obtain ⟨param', -, h'⟩ := bind_eq_ok_iff.mp h'
      split at h <;> cases h
      split at h' <;> cases h'
      rfl
  | label key key' =>
      dsimp only at h h'
      split at h <;> cases h
      split at h' <;> cases h'
      rfl
  | condition type type' => cases h

mutual

/-- Filters of one shape have one clause. -/
theorem eq_of_expr : ∀ (e e' : Expr) (clause clause' : Clause) (params params' : List Param),
    e.Alike e' → Clause.ofExpr e = .ok (clause, params) →
    Clause.ofExpr e' = .ok (clause', params') → clause = clause'
  | .compare _, _, _, _, _, _, .compare halike, h, h' => eq_of_comparison halike h h'
  | .all parts, _, _, _, _, _, .all halike, h, h' => by
      obtain ⟨⟨clauses, params⟩, hparts, h⟩ := bind_eq_ok_iff.mp h
      obtain ⟨⟨clauses', params'⟩, hparts', h'⟩ := bind_eq_ok_iff.mp h'
      cases h
      cases h'
      rw [eq_of_parts parts _ clauses clauses' _ _ halike hparts hparts']
  | .any parts, _, _, _, _, _, .any halike, h, h' => by
      obtain ⟨⟨clauses, params⟩, hparts, h⟩ := bind_eq_ok_iff.mp h
      obtain ⟨⟨clauses', params'⟩, hparts', h'⟩ := bind_eq_ok_iff.mp h'
      cases h
      cases h'
      rw [eq_of_parts parts _ clauses clauses' _ _ halike hparts hparts']
  | .not part, _, _, _, _, _, .not halike, h, h' => by
      obtain ⟨⟨clause, params⟩, hpart, h⟩ := bind_eq_ok_iff.mp h
      obtain ⟨⟨clause', params'⟩, hpart', h'⟩ := bind_eq_ok_iff.mp h'
      cases h
      cases h'
      rw [eq_of_expr part _ clause clause' _ _ halike hpart hpart']

theorem eq_of_parts : ∀ (parts parts' : List Expr) (clauses clauses' : List Clause)
    (params params' : List Param), List.Forall₂ Expr.Alike parts parts' →
    Clause.ofParts parts = .ok (clauses, params) →
    Clause.ofParts parts' = .ok (clauses', params') → clauses = clauses'
  | [], _, _, _, _, _, .nil, h, h' => by
      cases h
      cases h'
      rfl
  | part :: parts, part' :: parts', _, _, _, _, .cons hpart hparts, h, h' => by
      obtain ⟨⟨clause, params⟩, hclause, h⟩ := bind_eq_ok_iff.mp h
      obtain ⟨⟨clauses, more⟩, hclauses, h⟩ := bind_eq_ok_iff.mp h
      obtain ⟨⟨clause', params'⟩, hclause', h'⟩ := bind_eq_ok_iff.mp h'
      obtain ⟨⟨clauses', more'⟩, hclauses', h'⟩ := bind_eq_ok_iff.mp h'
      cases h
      cases h'
      rw [eq_of_expr part part' clause clause' _ _ hpart hclause hclause',
        eq_of_parts parts parts' clauses clauses' _ _ hparts hclauses hclauses']

end

end Clause

namespace Split

variable {e e' : Expr} {split split' : Split}

theorem alike_of_comparison {c c' : Comparison} (halike : c.Alike c')
    (h : ofComparison c = .ok split) (h' : ofComparison c' = .ok split') :
    List.Forall₂ Expr.Alike split.rest.toList split'.rest.toList ∧
      split.tests.length = split'.tests.length := by
  obtain ⟨-, t, t', ht, ht', htargets⟩ := id halike
  simp only [ofComparison, ht] at h
  simp only [ofComparison, ht'] at h'
  cases htargets with
  | column column =>
      cases h
      cases h'
      exact ⟨.cons (.compare halike) .nil, rfl⟩
  | label key key' =>
      cases h
      cases h'
      exact ⟨.cons (.compare halike) .nil, rfl⟩
  | condition type type' =>
      obtain ⟨test, -, h⟩ := bind_eq_ok_iff.mp h
      obtain ⟨test', -, h'⟩ := bind_eq_ok_iff.mp h'
      cases h
      cases h'
      exact ⟨.nil, rfl⟩

theorem eq_of_ofOffSpine (h : ofOffSpine e = .ok split) :
    split = ⟨some e, []⟩ ∧ ∀ c ∈ e.leaves, Target.isCondition c.field = false := by
  unfold ofOffSpine at h
  split at h
  · cases h
  · rename_i hnone
    cases h
    exact ⟨rfl, fun c hc => (Bool.not_eq_true _).mp (List.find?_eq_none.mp hnone c hc)⟩

theorem alike_of_ofOffSpine (halike : e.Alike e') (h : ofOffSpine e = .ok split)
    (h' : ofOffSpine e' = .ok split') :
    List.Forall₂ Expr.Alike split.rest.toList split'.rest.toList ∧
      split.tests.length = split'.tests.length := by
  rw [(eq_of_ofOffSpine h).1, (eq_of_ofOffSpine h').1]
  exact ⟨.cons halike .nil, rfl⟩

/-- A conjunction falls away, or becomes its only part, for both or for none. -/
theorem alike_restOf {kept kept' : List Expr} (h : List.Forall₂ Expr.Alike kept kept') :
    List.Forall₂ Expr.Alike (restOf kept).toList (restOf kept').toList := by
  cases h with
  | nil => exact .nil
  | cons hpart hparts =>
      cases hparts with
      | nil => exact .cons hpart .nil
      | cons hnext hparts => exact .cons (.all (.cons hpart (.cons hnext hparts))) .nil

mutual

/-- Filters of one shape are split into rests of one shape and equally many tests. -/
theorem alike_of_expr : ∀ (e e' : Expr) (split split' : Split), e.Alike e' →
    ofExpr e = .ok split → ofExpr e' = .ok split' →
    List.Forall₂ Expr.Alike split.rest.toList split'.rest.toList ∧
      split.tests.length = split'.tests.length
  | .compare _, _, _, _, .compare halike, h, h' => alike_of_comparison halike h h'
  | .all parts, _, _, _, .all halike, h, h' => by
      obtain ⟨⟨kept, tests⟩, hparts, h⟩ := bind_eq_ok_iff.mp h
      obtain ⟨⟨kept', tests'⟩, hparts', h'⟩ := bind_eq_ok_iff.mp h'
      cases h
      cases h'
      obtain ⟨hkept, hlength⟩ :=
        alike_of_parts parts _ kept kept' tests tests' halike hparts hparts'
      exact ⟨alike_restOf hkept, hlength⟩
  | .any _, _, _, _, .any halike, h, h' => alike_of_ofOffSpine (.any halike) h h'
  | .not _, _, _, _, .not halike, h, h' => alike_of_ofOffSpine (.not halike) h h'

theorem alike_of_parts : ∀ (parts parts' kept kept' : List Expr)
    (tests tests' : List ConditionTest), List.Forall₂ Expr.Alike parts parts' →
    ofParts parts = .ok (kept, tests) → ofParts parts' = .ok (kept', tests') →
    List.Forall₂ Expr.Alike kept kept' ∧ tests.length = tests'.length
  | [], _, _, _, _, _, .nil, h, h' => by
      cases h
      cases h'
      exact ⟨.nil, rfl⟩
  | part :: parts, part' :: parts', _, _, _, _, .cons hpart hparts, h, h' => by
      obtain ⟨split, hsplit, h⟩ := bind_eq_ok_iff.mp h
      obtain ⟨⟨kept, tests⟩, hkept, h⟩ := bind_eq_ok_iff.mp h
      obtain ⟨split', hsplit', h'⟩ := bind_eq_ok_iff.mp h'
      obtain ⟨⟨kept', tests'⟩, hkept', h'⟩ := bind_eq_ok_iff.mp h'
      cases h
      cases h'
      obtain ⟨hrest, hfirst⟩ := alike_of_expr part part' split split' hpart hsplit hsplit'
      obtain ⟨hmore, hothers⟩ :=
        alike_of_parts parts parts' kept kept' tests tests' hparts hkept hkept'
      refine ⟨List.rel_append hrest hmore, ?_⟩
      rw [List.length_append, List.length_append, hfirst, hothers]

end

end Split

/-! ## One question mark for each value -/

namespace Clause

/-- The number of question marks in a text. -/
def marks (s : String) : Nat :=
  s.toList.count '?'

theorem marks_append (s s' : String) : marks (s ++ s') = marks s + marks s' := by
  rw [marks, String.toList_append, List.count_append]
  rfl

theorem marks_column (column : Column) : marks column.text = 0 := by
  cases column <;> decide

theorem marks_relation (relation : Relation) : marks relation.text = 0 := by
  cases relation <;> decide

theorem marks_labelText : marks labelText = 1 := by
  decide

theorem marks_conditionText : marks conditionText = 2 := by
  decide +kernel

theorem marks_intercalate {separator : String} (h : marks separator = 0) (texts : List String) :
    marks (String.intercalate separator texts) = (texts.map marks).sum := by
  rw [marks, String.toList_intercalate]
  induction texts with
  | nil => rfl
  | cons text texts ih =>
      cases texts with
      | nil => simp [marks]
      | cons next texts =>
          rw [marks] at h
          rw [List.map_cons, List.map_cons, List.intercalate_cons_cons, ← List.map_cons,
            List.count_append, List.count_append, ih, h]
          simp [marks]

mutual

/-- The text of a clause has as many question marks as the clause takes values. -/
theorem marks_text : ∀ clause : Clause, marks clause.text = clause.holes
  | .column _ _ => by
      rw [text, marks_append, marks_append, marks_append, marks_column, marks_relation]
      rfl
  | .label _ => by
      rw [text, marks_append, marks_append, marks_append, marks_labelText, marks_relation]
      rfl
  | .condition => marks_conditionText
  | .joined connective parts => by
      rw [text, marks_append, marks_append, marks_intercalate (by cases connective <;> decide),
        marks_texts parts, holes]
      simp [marks]
  | .negated part => by
      rw [text, marks_append, marks_append, marks_text part, holes]
      simp [marks]

theorem marks_texts : ∀ clauses : List Clause,
    ((texts clauses).map marks).sum = holesOfList clauses
  | [] => rfl
  | part :: parts => by
      rw [texts, List.map_cons, List.sum_cons, marks_text part, marks_texts parts, holesOfList]

end

theorem holesOfList_append (clauses more : List Clause) :
    holesOfList (clauses ++ more) = holesOfList clauses + holesOfList more := by
  induction clauses with
  | nil => exact (Nat.zero_add _).symm
  | cons clause clauses ih =>
      rw [List.cons_append, holesOfList, holesOfList, ih, Nat.add_assoc]

theorem holesOfList_conditions (tests : List ConditionTest) :
    holesOfList (tests.map fun _ => .condition) = (tests.flatMap (·.params)).length := by
  induction tests with
  | nil => rfl
  | cons t tests ih =>
      rw [List.map_cons, holesOfList, ih, List.flatMap_cons, List.length_append]
      rfl

end Clause

/-! ## Which values, and in which order -/

namespace Filter

/-- What a literal is passed as. -/
def Literal.param? : Literal → Option Param
  | .text value => some (.text value)
  | .int value => some (.int value)
  | .bool _ => none

/-- What a literal is passed as where it is compared with a column: timestamps as they are kept. -/
def Column.param? (column : Column) (value : Literal) : Option Param :=
  match column.type, value with
  | .timestamp, .text value =>
    (Instant.parseStrict? value).map fun t => .text t.toStorageText
  | _, value => value.param?

/-- The values of a comparison: of a label its key first, of a condition its type. -/
def Comparison.values (c : Comparison) : List Param :=
  match Target.ofField c.field with
  | .ok (.column column) => (column.param? c.value).toList
  | .ok (.label key) => .text key :: c.value.param?.toList
  | .ok (.condition type) => .text type :: c.value.param?.toList
  | .error _ => []

end Filter

namespace Clause

theorem param?_of_columnParam {column : Column} {c : Comparison} {param : Param}
    (h : columnParam column c = .ok param) : column.param? c.value = some param := by
  unfold columnParam at h
  unfold Column.param?
  split at h
  · rename_i htype hvalue
    cases h
    simp only [htype, hvalue]
    rfl
  · cases h
  · rename_i htype hvalue
    cases h
    simp only [htype, hvalue]
    rfl
  · cases h
  · rename_i htype hvalue
    split at h
    · rename_i hparse
      cases h
      simp only [htype, hvalue, hparse]
      rfl
    · cases h
  · cases h

theorem values_of_comparison {c : Comparison} {clause : Clause} {params : List Param}
    (h : Clause.ofComparison c = .ok (clause, params)) : params = c.values := by
  unfold ofComparison at h
  unfold Comparison.values
  cases htarget : Target.ofField c.field with
  | error fault =>
      simp only [htarget] at h
      cases h
  | ok target =>
      simp only [htarget] at h
      cases target with
      | column column =>
          obtain ⟨param, hparam, h⟩ := bind_eq_ok_iff.mp h
          split at h
          · cases h
          · cases h
            simp only [param?_of_columnParam hparam, Option.toList_some]
      | label key =>
          cases hvalue : c.value with
          | text value =>
              simp only [hvalue] at h
              cases h
              rfl
          | int _ | bool _ =>
              simp only [hvalue] at h
              cases h
      | condition type => cases h

mutual

/-- The values of a clause are those of the comparisons from left to right. -/
theorem values_of_expr : ∀ (e : Expr) (clause : Clause) (params : List Param),
    Clause.ofExpr e = .ok (clause, params) → params = e.leaves.flatMap (·.values)
  | .compare c, _, _, h => by
      rw [Expr.leaves, List.flatMap_singleton]
      exact values_of_comparison h
  | .all parts, _, _, h => by
      obtain ⟨⟨clauses, params⟩, hparts, h⟩ := bind_eq_ok_iff.mp h
      cases h
      exact values_of_parts parts clauses _ hparts
  | .any parts, _, _, h => by
      obtain ⟨⟨clauses, params⟩, hparts, h⟩ := bind_eq_ok_iff.mp h
      cases h
      exact values_of_parts parts clauses _ hparts
  | .not part, _, _, h => by
      obtain ⟨⟨clause, params⟩, hpart, h⟩ := bind_eq_ok_iff.mp h
      cases h
      exact values_of_expr part clause _ hpart

theorem values_of_parts : ∀ (parts : List Expr) (clauses : List Clause) (params : List Param),
    Clause.ofParts parts = .ok (clauses, params) →
    params = (Expr.leavesOfList parts).flatMap (·.values)
  | [], _, _, h => by
      cases h
      rfl
  | part :: parts, _, _, h => by
      obtain ⟨⟨clause, params⟩, hpart, h⟩ := bind_eq_ok_iff.mp h
      obtain ⟨⟨clauses, more⟩, hparts, h⟩ := bind_eq_ok_iff.mp h
      cases h
      rw [Expr.leavesOfList, List.flatMap_append, values_of_expr part clause params hpart,
        values_of_parts parts clauses more hparts]

end

end Clause

namespace Split

/-- What is left and the tests are the comparisons with anything else and with conditions. -/
def Keeps (leaves : List Comparison) (rest : List Expr) (tests : List ConditionTest) : Prop :=
  Expr.leavesOfList rest = leaves.filter (fun c => !Target.isCondition c.field) ∧
    tests.flatMap (·.params) =
      (leaves.filter fun c => Target.isCondition c.field).flatMap (·.values)

theorem keeps_ofComparison {c : Comparison} {split : Split} (h : ofComparison c = .ok split) :
    Keeps [c] split.rest.toList split.tests := by
  unfold ofComparison at h
  split at h
  · rename_i type htarget
    obtain ⟨t, ht, h⟩ := bind_eq_ok_iff.mp h
    cases h
    obtain ⟨-, hvalue, htype⟩ := ConditionTest.of_eq_ok ht
    have hcondition : Target.isCondition c.field = true := by
      simp only [Target.isCondition, htarget]
    simp [Keeps, Expr.leavesOfList, hcondition, ConditionTest.params, Comparison.values, htarget,
      hvalue, htype, Literal.param?]
  · rename_i hother
    cases h
    have hcondition : Target.isCondition c.field = false := by
      unfold Target.isCondition
      split
      · rename_i type htarget
        exact absurd htarget (hother type)
      · rfl
    simp [Keeps, Expr.leavesOfList, Expr.leaves, hcondition]

theorem keeps_ofOffSpine {e : Expr} {split : Split} (h : ofOffSpine e = .ok split) :
    Keeps e.leaves split.rest.toList split.tests := by
  obtain ⟨rfl, hnone⟩ := eq_of_ofOffSpine h
  refine ⟨?_, ?_⟩
  · rw [List.filter_eq_self.mpr (by simpa using hnone)]
    simp [Expr.leavesOfList]
  · rw [List.filter_eq_nil_iff.mpr (by simpa using hnone)]
    rfl

theorem leavesOfList_append (parts more : List Expr) :
    Expr.leavesOfList (parts ++ more) = Expr.leavesOfList parts ++ Expr.leavesOfList more := by
  induction parts with
  | nil => rfl
  | cons part parts ih =>
      rw [List.cons_append, Expr.leavesOfList, Expr.leavesOfList, ih, List.append_assoc]

theorem leavesOfList_restOf (kept : List Expr) :
    Expr.leavesOfList (restOf kept).toList = Expr.leavesOfList kept := by
  unfold restOf
  split
  · rfl
  · rfl
  · rw [Option.toList_some, Expr.leavesOfList, Expr.leaves, Expr.leavesOfList, List.append_nil]

theorem Keeps.append {leaves others : List Comparison} {rest more : List Expr}
    {tests further : List ConditionTest} (h : Keeps leaves rest tests)
    (h' : Keeps others more further) :
    Keeps (leaves ++ others) (rest ++ more) (tests ++ further) := by
  refine ⟨?_, ?_⟩
  · rw [leavesOfList_append, h.1, h'.1, List.filter_append]
  · rw [List.flatMap_append, h.2, h'.2, List.filter_append, List.flatMap_append]

mutual

/-- Comparisons with conditions become tests, and all others are left, in the order in which
they stand. -/
theorem keeps_ofExpr : ∀ (e : Expr) (split : Split), ofExpr e = .ok split →
    Keeps e.leaves split.rest.toList split.tests
  | .compare _, _, h => keeps_ofComparison h
  | .all parts, _, h => by
      obtain ⟨⟨kept, tests⟩, hparts, h⟩ := bind_eq_ok_iff.mp h
      cases h
      obtain ⟨hrest, htests⟩ := keeps_ofParts parts kept tests hparts
      exact ⟨(leavesOfList_restOf kept).trans hrest, htests⟩
  | .any _, _, h => keeps_ofOffSpine h
  | .not _, _, h => keeps_ofOffSpine h

theorem keeps_ofParts : ∀ (parts kept : List Expr) (tests : List ConditionTest),
    ofParts parts = .ok (kept, tests) → Keeps (Expr.leavesOfList parts) kept tests
  | [], _, _, h => by
      cases h
      exact ⟨rfl, rfl⟩
  | part :: parts, _, _, h => by
      obtain ⟨split, hpart, h⟩ := bind_eq_ok_iff.mp h
      obtain ⟨⟨kept, tests⟩, hparts, h⟩ := bind_eq_ok_iff.mp h
      cases h
      exact (keeps_ofExpr part split hpart).append (keeps_ofParts parts kept tests hparts)

end

end Split

/-! ## Queries -/

namespace Query

variable {e e' : Expr} {q q' : Query}

theorem parts_eq_of_alike (halike : e.Alike e') (h : ofExpr e = .ok q)
    (h' : ofExpr e' = .ok q') : q.parts = q'.parts := by
  obtain ⟨-, split, clauses, params, hsplit, hclauses, hparts, -⟩ := exists_of_ofExpr h
  obtain ⟨-, split', clauses', params', hsplit', hclauses', hparts', -⟩ := exists_of_ofExpr h'
  obtain ⟨hrest, htests⟩ := Split.alike_of_expr e e' split split' halike hsplit hsplit'
  rw [hparts, hparts', Clause.eq_of_parts _ _ _ _ _ _ hrest hclauses hclauses',
    List.map_const', List.map_const', htests]

theorem params_eq (h : ofExpr e = .ok q) : q.params =
    (e.leaves.filter fun c => !Target.isCondition c.field).flatMap (·.values) ++
      (e.leaves.filter fun c => Target.isCondition c.field).flatMap (·.values) := by
  obtain ⟨-, split, clauses, params, hsplit, hclauses, -, hparams⟩ := exists_of_ofExpr h
  obtain ⟨hrest, htests⟩ := Split.keeps_ofExpr e split hsplit
  rw [hparams, Clause.values_of_parts _ _ _ hclauses, hrest, htests]

/-- A query has as many question marks as values. -/
theorem holes_ofExpr (h : ofExpr e = .ok q) :
    Clause.holesOfList q.parts = q.params.length := by
  obtain ⟨-, split, clauses, params, -, hclauses, hparts, hparams⟩ := exists_of_ofExpr h
  rw [hparts, Clause.holesOfList_append, Clause.holes_ofParts _ _ _ hclauses,
    Clause.holesOfList_conditions, hparams, List.length_append]

theorem marks_text (q : Query) : Clause.marks q.text = Clause.holesOfList q.parts := by
  unfold text
  split
  · rename_i part hparts
    rw [hparts, Clause.marks_text, Clause.holesOfList, Clause.holesOfList, Nat.add_zero]
  · rw [Clause.marks_intercalate (by decide), List.map_map, ← Clause.marks_texts]
    congr 2
    funext s
    simp [Clause.marks]

/-- Filters of one shape, with the same relations and the same kinds of fields, have queries of
one text, whatever their keys, types and literals are.  The text has as many question marks as there
are values; these are, from left to right, the values of the comparisons with columns and labels,
and after them those of the comparisons with conditions. -/
theorem text_is_free_of_values :
    (∀ (e e' : Expr) (q q' : Query), e.Alike e' → ofExpr e = .ok q → ofExpr e' = .ok q' →
      q.text = q'.text) ∧
    ∀ (e : Expr) (q : Query), ofExpr e = .ok q →
      q.text.toList.count '?' = q.params.length ∧
      q.params = (e.leaves.filter fun c => !Target.isCondition c.field).flatMap (·.values) ++
        (e.leaves.filter fun c => Target.isCondition c.field).flatMap (·.values) := by
  refine ⟨?_, ?_⟩
  · intro e e' q q' halike h h'
    rw [text, text, parts_eq_of_alike halike h h']
  · intro e q h
    exact ⟨(marks_text q).trans (holes_ofExpr h), params_eq h⟩

/-- A label has a value, and a condition a status. -/
def sampleFilter (key value type word : String) : Expr :=
  .all [.compare ⟨"labels." ++ key, .eq, .text value⟩,
        .compare ⟨"status.conditions." ++ type, .eq, .text word⟩]

theorem text_is_free_of_values_sample :
    ∃ q q', ofExpr (sampleFilter "env" "test" "Ready" "True") = .ok q ∧
      ofExpr (sampleFilter "a.b/c" "' OR '' = '?" "Health" "False") = .ok q' ∧
      q.text = q'.text ∧ q'.text.toList.count '?' = q'.params.length := by
  have hcompiles : (ofExpr (sampleFilter "env" "test" "Ready" "True")).isOk = true := by
    decide +kernel
  have hcompiles' :
      (ofExpr (sampleFilter "a.b/c" "' OR '' = '?" "Health" "False")).isOk = true := by
    decide +kernel
  have halike : (sampleFilter "env" "test" "Ready" "True").Alike
      (sampleFilter "a.b/c" "' OR '' = '?" "Health" "False") := by
    have hlabel : Target.ofField ("labels." ++ "env") = .ok (.label "env") ∧
        Target.ofField ("labels." ++ "a.b/c") = .ok (.label "a.b/c") := by
      decide +kernel
    have hcondition : Target.ofField ("status.conditions." ++ "Ready") = .ok (.condition "Ready") ∧
        Target.ofField ("status.conditions." ++ "Health") = .ok (.condition "Health") := by
      decide +kernel
    exact .all (.cons (.compare ⟨rfl, _, _, hlabel.1, hlabel.2, .label ..⟩)
      (.cons (.compare ⟨rfl, _, _, hcondition.1, hcondition.2, .condition ..⟩) .nil))
  cases hquery : ofExpr (sampleFilter "env" "test" "Ready" "True") with
  | error fault => rw [hquery] at hcompiles; cases hcompiles
  | ok q =>
      cases hquery' : ofExpr (sampleFilter "a.b/c" "' OR '' = '?" "Health" "False") with
      | error fault => rw [hquery'] at hcompiles'; cases hcompiles'
      | ok q' =>
          exact ⟨q, q', rfl, rfl, text_is_free_of_values.1 _ _ q q' halike hquery hquery',
            (text_is_free_of_values.2 _ q' hquery').1⟩

end Query
end StatusBoard

import StatusBoard.Proofs.Store.Decoding
import StatusBoard.Proofs.Store.Predicate
set_option autoImplicit false

/-!
# Query: a query means what its filter means

A filter is taken apart before it becomes a query: conditions leave the spine, groups that they
empty fall away, and values become parameters that only their position ties to their clauses.  The
predicates that come out are true of a row exactly if the filter is true of the resource in it.
-/

namespace StatusBoard

open StatusBoard.Filter (Expr Comparison Literal Relation Column Target FilterFault)

/-! ## Comparisons -/

/-- A column that can be compared with a literal is given the literal as its parameter. -/
theorem operand?_of_columnParam {column : Column} {c : Comparison} {param : Param}
    (h : columnParam column c = .ok param) : column.operand? c.value = some param.toCell := by
  unfold columnParam at h
  unfold Column.operand?
  split at h
  · rename_i htype hvalue
    cases h
    simp only [htype, hvalue]
    rfl
  · cases h
  · rename_i htype hvalue
    cases h
    simp only [htype, hvalue]
    rfl
  · cases h
  · rename_i htype hvalue
    split at h
    · rename_i hparse
      cases h
      simp only [htype, hvalue, hparse]
      rfl
    · cases h
  · cases h

theorem Cell.relate_param (relation : Relation) {a : Cell} (ha : a ≠ .null) (param : Param) :
    Cell.relate relation a param.toCell = some (relation.holds (Cell.order a param.toCell)) := by
  cases a with
  | null => exact absurd rfl ha
  | int _ | real _ | infinite _ | text _ | blob _ => cases param <;> rfl

theorem Resource.column_ne_null (x : Resource) (column : Column) : x.column column ≠ .null := by
  cases column <;> simp [column]

namespace Clause

variable {r : ResourceRow} {x : Resource}

/-- The predicate of a comparison is what the comparison is. -/
theorem truth_ofComparison (h : r.Records x) {c : Comparison} {clause : Clause}
    {params : List Param} (hclause : Clause.ofComparison c = .ok (clause, params))
    (more : List Param) :
    (Predicate.ofClause (params ++ more) clause).truth r = c.truth x := by
  unfold ofComparison at hclause
  unfold Comparison.truth
  cases htarget : Target.ofField c.field with
  | error fault =>
      simp only [htarget] at hclause
      cases hclause
  | ok target =>
      simp only [htarget] at hclause
      cases target with
      | column column =>
          obtain ⟨param, hparam, hclause⟩ := bind_eq_ok_iff.mp hclause
          split at hclause
          · cases hclause
          · cases hclause
            simp only [operand?_of_columnParam hparam, Option.map_some, Filter.order_eq]
            rw [← Cell.relate_param c.relation (x.column_ne_null column) param, ← h.cell column]
            rfl
      | label key =>
          cases hvalue : c.value with
          | text value =>
              simp only [hvalue] at hclause
              cases hclause
              change ((r.labels.member key).toOption.bind fun sight =>
                sight.relate c.relation value) = _
              simp only [h.member key, Resource.labelSight, Except.toOption, Option.bind_some]
              cases x.labels.get? key with
              | none => rfl
              | some found =>
                  change some (c.relation.holds
                    (compare (Json5.codesOf found) (Json5.codesOf value))) = _
                  rw [Json5.compare_codesOf]
                  simp only [Filter.order_eq]
                  rfl
          | int _ | bool _ =>
              simp only [hvalue] at hclause
              cases hclause
      | condition type => cases hclause

theorem holes_ofComparison {c : Comparison} {clause : Clause} {params : List Param}
    (hclause : Clause.ofComparison c = .ok (clause, params)) : clause.holes = params.length := by
  unfold ofComparison at hclause
  split at hclause
  · obtain ⟨param, -, hclause⟩ := bind_eq_ok_iff.mp hclause
    split at hclause
    · cases hclause
    · cases hclause
      rfl
  · split at hclause
    · cases hclause
      rfl
    · cases hclause
  · cases hclause
  · cases hclause

/-! ## Trees -/

mutual

/-- A clause has as many question marks as values. -/
theorem holes_ofExpr : ∀ (e : Expr) (clause : Clause) (params : List Param),
    Clause.ofExpr e = .ok (clause, params) → clause.holes = params.length
  | .compare _, _, _, hclause => holes_ofComparison hclause
  | .all parts, _, _, hclause => by
      obtain ⟨⟨clauses, params⟩, hparts, hclause⟩ := bind_eq_ok_iff.mp hclause
      cases hclause
      exact holes_ofParts parts clauses _ hparts
  | .any parts, _, _, hclause => by
      obtain ⟨⟨clauses, params⟩, hparts, hclause⟩ := bind_eq_ok_iff.mp hclause
      cases hclause
      exact holes_ofParts parts clauses _ hparts
  | .not part, _, _, hclause => by
      obtain ⟨⟨clause, params⟩, hpart, hclause⟩ := bind_eq_ok_iff.mp hclause
      cases hclause
      exact holes_ofExpr part clause _ hpart

theorem holes_ofParts : ∀ (parts : List Expr) (clauses : List Clause) (params : List Param),
    Clause.ofParts parts = .ok (clauses, params) → holesOfList clauses = params.length
  | [], _, _, hclauses => by
      cases hclauses
      rfl
  | part :: parts, _, _, hclauses => by
      obtain ⟨⟨clause, params⟩, hpart, hclauses⟩ := bind_eq_ok_iff.mp hclauses
      obtain ⟨⟨clauses, more⟩, hparts, hclauses⟩ := bind_eq_ok_iff.mp hclauses
      cases hclauses
      rw [holesOfList, holes_ofExpr part clause params hpart,
        holes_ofParts parts clauses more hparts, List.length_append]

end

mutual

/-- Each value stands for the question mark that it was made for, so a clause is what its
filter is. -/
theorem truth_ofExpr (h : r.Records x) : ∀ (e : Expr) (clause : Clause) (params : List Param),
    Clause.ofExpr e = .ok (clause, params) →
    ∀ more, (Predicate.ofClause (params ++ more) clause).truth r = e.truth x
  | .compare _, _, _, hclause, more => truth_ofComparison h hclause more
  | .all parts, _, _, hclause, more => by
      obtain ⟨⟨clauses, params⟩, hparts, hclause⟩ := bind_eq_ok_iff.mp hclause
      cases hclause
      rw [Predicate.ofClause, Predicate.truth_join, truth_ofParts h parts clauses _ hparts more,
        Expr.truth, Expr.truthOfAll_eq]
      rfl
  | .any parts, _, _, hclause, more => by
      obtain ⟨⟨clauses, params⟩, hparts, hclause⟩ := bind_eq_ok_iff.mp hclause
      cases hclause
      rw [Predicate.ofClause, Predicate.truth_join, truth_ofParts h parts clauses _ hparts more,
        Expr.truth, Expr.truthOfAny_eq]
      rfl
  | .not part, _, _, hclause, more => by
      obtain ⟨⟨clause, params⟩, hpart, hclause⟩ := bind_eq_ok_iff.mp hclause
      cases hclause
      rw [Predicate.ofClause, Predicate.truth, truth_ofExpr h part clause _ hpart more, Expr.truth]

theorem truth_ofParts (h : r.Records x) :
    ∀ (parts : List Expr) (clauses : List Clause) (params : List Param),
    Clause.ofParts parts = .ok (clauses, params) →
    ∀ more, (Predicate.ofClauses (params ++ more) clauses).map (Predicate.truth r) =
      parts.map (Expr.truth x)
  | [], _, _, hclauses, more => by
      cases hclauses
      rfl
  | part :: parts, _, _, hclauses, more => by
      obtain ⟨⟨clause, params⟩, hpart, hclauses⟩ := bind_eq_ok_iff.mp hclauses
      obtain ⟨⟨clauses, others⟩, hparts, hclauses⟩ := bind_eq_ok_iff.mp hclauses
      cases hclauses
      rw [List.append_assoc, Predicate.ofClauses, holes_ofExpr part clause params hpart,
        List.drop_left, List.map_cons, List.map_cons,
        truth_ofExpr h part clause params hpart (others ++ more),
        truth_ofParts h parts clauses others hparts more]

end

end Clause

/-! ## The spine -/

/-- All tests of a list hold of a resource. -/
def ConditionTest.allHold (x : Resource) (tests : List ConditionTest) : Prop :=
  ∀ t ∈ tests, x.statusConditions.has t.type t.status.word = true

theorem ConditionStatus.word_of_ofWord? {word : String} {status : ConditionStatus}
    (h : ConditionStatus.ofWord? word = some status) : status.word = word := by
  unfold ofWord? at h
  split at h
  · rename_i heq; cases h; exact heq.symm
  split at h
  · rename_i heq; cases h; exact heq.symm
  split at h
  · rename_i heq; cases h; exact heq.symm
  · cases h

theorem ConditionTest.of_eq_ok {type : String} {relation : Relation} {value : Literal}
    {t : ConditionTest} (h : ConditionTest.of type relation value = .ok t) :
    relation = .eq ∧ value = .text t.status.word ∧ t.type = type := by
  unfold ConditionTest.of at h
  simp only at h
  split at h
  · cases h
  · rename_i hrelation
    split at h
    · split at h
      · split at h
        · rename_i status hword
          cases h
          exact ⟨Decidable.not_not.mp hrelation, by rw [ConditionStatus.word_of_ofWord? hword], rfl⟩
        · cases h
      · cases h
    · cases h

namespace Split

variable {x : Resource}

/-- What is left of a filter and its tests are all true. -/
def AllTrue (x : Resource) (rest : List Expr) (tests : List ConditionTest) : Prop :=
  (∀ e ∈ rest, e.truth x = some true) ∧ ConditionTest.allHold x tests

theorem allTrue_append (rest more : List Expr) (tests others : List ConditionTest) :
    AllTrue x (rest ++ more) (tests ++ others) ↔ AllTrue x rest tests ∧ AllTrue x more others := by
  simp only [AllTrue, ConditionTest.allHold, List.forall_mem_append]
  constructor
  · rintro ⟨⟨hrest, hmore⟩, htests, hothers⟩
    exact ⟨⟨hrest, htests⟩, hmore, hothers⟩
  · rintro ⟨⟨hrest, htests⟩, hmore, hothers⟩
    exact ⟨⟨hrest, hmore⟩, htests, hothers⟩

theorem true_iff_ofComparison {c : Comparison} {split : Split} (h : ofComparison c = .ok split) :
    c.truth x = some true ↔ AllTrue x split.rest.toList split.tests := by
  unfold ofComparison at h
  split at h
  · rename_i type htarget
    obtain ⟨t, ht, hsplit⟩ := bind_eq_ok_iff.mp h
    cases hsplit
    obtain ⟨hrelation, hvalue, htype⟩ := ConditionTest.of_eq_ok ht
    simp [Comparison.truth, htarget, hrelation, hvalue, AllTrue, ConditionTest.allHold, htype]
  · cases h
    simp [AllTrue, ConditionTest.allHold, Expr.truth]

theorem true_iff_ofOffSpine {e : Expr} {split : Split} (h : ofOffSpine e = .ok split) :
    e.truth x = some true ↔ AllTrue x split.rest.toList split.tests := by
  unfold ofOffSpine at h
  split at h
  · cases h
  · cases h
    simp [AllTrue, ConditionTest.allHold]

/-- A conjunction of which nothing or one part is left is no conjunction any more. -/
theorem forall_restOf (kept : List Expr) :
    (∀ e ∈ (restOf kept).toList, e.truth x = some true) ↔ ∀ e ∈ kept, e.truth x = some true := by
  unfold restOf
  split
  · simp
  · simp
  · simp only [Option.toList_some, List.forall_mem_singleton, Expr.truth, Expr.truthOfAll_eq,
      Truth.all_eq_true_iff, List.forall_mem_map]

mutual

/-- A filter is true if what is left of it is, and all the conditions that were taken
off its spine are there. -/
theorem true_iff_ofExpr : ∀ (e : Expr) (split : Split), ofExpr e = .ok split →
    (e.truth x = some true ↔ AllTrue x split.rest.toList split.tests)
  | .compare _, _, h => true_iff_ofComparison h
  | .all parts, _, h => by
      obtain ⟨⟨kept, tests⟩, hparts, hsplit⟩ := bind_eq_ok_iff.mp h
      cases hsplit
      rw [Expr.truth, Expr.truthOfAll_eq, Truth.all_eq_true_iff, List.forall_mem_map,
        true_iff_ofParts parts kept tests hparts, AllTrue, AllTrue, forall_restOf]
  | .any _, _, h => true_iff_ofOffSpine h
  | .not _, _, h => true_iff_ofOffSpine h

theorem true_iff_ofParts : ∀ (parts kept : List Expr) (tests : List ConditionTest),
    ofParts parts = .ok (kept, tests) →
    ((∀ e ∈ parts, e.truth x = some true) ↔ AllTrue x kept tests)
  | [], _, _, h => by
      cases h
      simp [AllTrue, ConditionTest.allHold]
  | part :: parts, _, _, h => by
      obtain ⟨split, hpart, h⟩ := bind_eq_ok_iff.mp h
      obtain ⟨⟨kept, tests⟩, hparts, h⟩ := bind_eq_ok_iff.mp h
      cases h
      rw [List.forall_mem_cons, true_iff_ofExpr part split hpart,
        true_iff_ofParts parts kept tests hparts, allTrue_append]

end

end Split

/-! ## Queries -/

namespace Query

variable {r : ResourceRow} {x : Resource}

/-- A query has the clauses and values of what is left of its filter, and then those of the
conditions. -/
theorem exists_of_ofExpr {e : Expr} {q : Query} (h : ofExpr e = .ok q) :
    e.hasEmptyGroup = false ∧ ∃ split clauses params, Split.ofExpr e = .ok split ∧
      Clause.ofParts split.rest.toList = .ok (clauses, params) ∧
      q.parts = clauses ++ split.tests.map (fun _ => Clause.condition) ∧
      q.params = params ++ split.tests.flatMap (·.params) := by
  unfold ofExpr at h
  simp only at h
  split at h
  · cases h
  rename_i hempty
  refine ⟨(Bool.not_eq_true _).mp hempty, ?_⟩
  split at h
  · obtain ⟨split, hsplit, h⟩ := bind_eq_ok_iff.mp h
    split at h
    · rename_i hrest
      cases h
      exact ⟨split, [], [], hsplit, by rw [hrest]; rfl, rfl, rfl⟩
    · rename_i rest hrest
      obtain ⟨⟨clause, params⟩, hclause, h⟩ := bind_eq_ok_iff.mp h
      cases h
      refine ⟨split, [clause], params, hsplit, ?_, rfl, rfl⟩
      rw [hrest, Option.toList_some, Clause.ofParts, hclause]
      exact congrArg (fun params => Except.ok ([clause], params)) (List.append_nil params)
  · cases h

theorem ofClauses_append (params : List Param) (clauses more : List Clause) :
    Predicate.ofClauses params (clauses ++ more) = Predicate.ofClauses params clauses ++
      Predicate.ofClauses (params.drop (Clause.holesOfList clauses)) more := by
  induction clauses generalizing params with
  | nil => rfl
  | cons clause clauses ih =>
      rw [List.cons_append, Predicate.ofClauses, ih, List.drop_drop]
      rfl

theorem ofClauses_conditions (tests : List ConditionTest) :
    Predicate.ofClauses (tests.flatMap (·.params)) (tests.map fun _ => Clause.condition) =
      tests.map fun t => Predicate.condition t.type t.status.word := by
  induction tests with
  | nil => rfl
  | cons t tests ih =>
      rw [List.flatMap_cons, List.map_cons, Predicate.ofClauses, Clause.holes, List.map_cons]
      change _ :: Predicate.ofClauses (tests.flatMap (·.params))
        (tests.map fun _ => Clause.condition) = _
      rw [ih]
      rfl

theorem allTrue_conditions (h : r.Records x) (tests : List ConditionTest) :
    Predicate.allTrue r (tests.map fun t => .condition t.type t.status.word) = true ↔
      ConditionTest.allHold x tests := by
  rw [Predicate.allTrue_iff, List.forall_mem_map]
  apply forall_congr'
  intro t
  apply forall_congr'
  intro _
  rw [Predicate.truth, h.hasCondition]
  simp [Except.toOption]

/-- The predicates of a query are true of a row if the filter is true of the resource in it. -/
theorem allTrue_ofExpr (h : r.Records x) {e : Expr} {q : Query} (hquery : ofExpr e = .ok q) :
    Predicate.allTrue r (Predicate.ofClauses q.params q.parts) = e.isTrueOf x := by
  obtain ⟨-, split, clauses, params, hsplit, hclauses, hparts, hparams⟩ := exists_of_ofExpr hquery
  have htruth := Clause.truth_ofParts h _ clauses params hclauses (split.tests.flatMap (·.params))
  have hrest : (∀ p ∈ Predicate.ofClauses q.params clauses, p.truth r = some true) ↔
      ∀ part ∈ split.rest.toList, part.truth x = some true := by
    rw [← List.forall_mem_map (f := Predicate.truth r) (P := (· = some true)), hparams, htruth,
      List.forall_mem_map]
  have htests : Predicate.ofClauses (q.params.drop (Clause.holesOfList clauses))
      (split.tests.map fun _ => Clause.condition) =
        split.tests.map fun t => Predicate.condition t.type t.status.word := by
    rw [hparams, Clause.holes_ofParts _ clauses params hclauses, List.drop_left,
      ofClauses_conditions]
  rw [Bool.eq_iff_iff, Expr.isTrueOf, decide_eq_true_eq, Split.true_iff_ofExpr e split hsplit,
    hparts, ofClauses_append, htests, Predicate.allTrue_iff, List.forall_mem_append, hrest,
    ← Predicate.allTrue_iff, allTrue_conditions h, Split.AllTrue]

end Query

/-! ## Values of clauses -/

namespace Predicate

theorem isPlain_param (param : Option Param) : (param.elim .null Param.toCell).IsPlain := by
  rcases param with _ | (_ | _) <;> trivial

mutual

/-- The values that a clause compares with are parameters, which are plain. -/
theorem givePlain_ofClause : ∀ (clause : Clause) (params : List Param),
    GivePlain (partsOf .and (ofClause params clause))
  | .column _ _, params => by
      intro column value hmem
      cases List.mem_singleton.mp hmem
      exact isPlain_param params[0]?
  | .label _, _ | .condition, _ | .negated _, _ => by
      intro column value hmem
      cases List.mem_singleton.mp hmem
  | .joined .and clauses, params => by
      intro column value hmem
      rw [ofClause, join, partsOf, if_pos rfl] at hmem
      exact givePlain_ofClauses clauses params column value hmem
  | .joined .or clauses, params => by
      intro column value hmem
      rw [ofClause, join, partsOf, if_neg (by decide), List.mem_singleton] at hmem
      cases hmem

theorem givePlain_ofClauses : ∀ (clauses : List Clause) (params : List Param),
    GivePlain ((ofClauses params clauses).flatMap (partsOf .and))
  | [], _ => by
      intro column value hmem
      cases hmem
  | clause :: clauses, params => by
      intro column value hmem
      rw [ofClauses, List.flatMap_cons] at hmem
      rcases List.mem_append.mp hmem with hmem | hmem
      · exact givePlain_ofClause clause params column value hmem
      · exact givePlain_ofClauses clauses _ column value hmem

end

end Predicate

/-- What the kind of a row is compared with. -/
theorem ResourceRow.Records.truth_kind {r : ResourceRow} {x : Resource} (h : r.Records x)
    (kind : String) :
    (Predicate.compare .kind none .eq (.text kind)).truth r =
      some (decide (x.kind = kind)) := by
  rw [Predicate.truth, Option.getD_none, h.cell, Cell.relate, Resource.column]
  · rw [Cell.order, Relation.holds, ← Json5.compare_codesOf]
    congr 1
    rw [Bool.eq_iff_iff, beq_iff_eq, Std.compare_eq_iff_eq, decide_eq_true_eq]
    exact ⟨Json5.codesOf_inj, fun heq => by rw [heq]⟩
  · simp [Resource.column]
  · simp

/-- The predicates of a search are true of the live rows of the kind whose resources
the filter is true of. -/
theorem Query.allTrue_predicates {r : ResourceRow} {x : Resource} (h : r.Records x)
    {e : Expr} {q : Query} (hquery : ofExpr e = .ok q) (kind : String) :
    Predicate.allTrue r (predicates kind (some q)) =
      (r.isLive && decide (x.kind = kind) && e.isTrueOf x) := by
  have hplain : Predicate.GivePlain (.compare .kind none .eq (.text kind) :: .live ::
      (Predicate.ofClauses q.params q.parts).flatMap (Predicate.partsOf .and)) := by
    intro column value hmem
    rcases List.mem_cons.mp hmem with hmem | hmem
    · cases hmem
      trivial
    rcases List.mem_cons.mp hmem with hmem | hmem
    · cases hmem
    · exact Predicate.givePlain_ofClauses q.parts q.params column value hmem
  rw [predicates, Option.elim_some, Predicate.allTrue_pinned h.isPlain hplain,
    Predicate.allTrue, List.all_cons, List.all_cons, ← Predicate.allTrue, Predicate.allTrue_flatMap,
    allTrue_ofExpr h hquery, h.truth_kind, Predicate.truth]
  cases r.isLive <;> cases decide (x.kind = kind) <;> simp

/-- What a search asks of resources of its kind: what its filter says, and nothing without one. -/
inductive Query.Means : Option Query → (Resource → Bool) → Prop where
  | nothing : Means none fun _ => true
  | filter {e : Expr} {q : Query} (compiles : ofExpr e = .ok q) : Means (some q) e.isTrueOf

theorem Query.Means.allTrue {query : Option Query} {p : Resource → Bool} (hmeans : Means query p)
    {r : ResourceRow} {x : Resource} (h : r.Records x) (kind : String) :
    Predicate.allTrue r (predicates kind query) =
      (r.isLive && decide (x.kind = kind) && p x) := by
  cases hmeans with
  | nothing =>
      have hplain : Predicate.GivePlain [.compare .kind none .eq (.text kind), .live] := by
        intro column value hmem
        simp only [List.mem_cons, List.not_mem_nil, or_false] at hmem
        obtain hmem | hmem := hmem <;> cases hmem
        trivial
      rw [predicates, Option.elim_none, Predicate.allTrue_pinned h.isPlain hplain,
        Predicate.allTrue, List.all_cons, List.all_cons, List.all_nil, h.truth_kind,
        Predicate.truth]
      cases r.isLive <;> cases decide (x.kind = kind) <;> simp
  | filter compiles => exact allTrue_predicates h compiles kind

end StatusBoard

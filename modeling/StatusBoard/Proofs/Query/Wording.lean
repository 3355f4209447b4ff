import StatusBoard.Proofs.Query.Truth
import Mathlib.Algebra.GroupWithZero.Nat
set_option autoImplicit false

/-!
# Query: how its text is read

The database is given the text of a condition on rows, and the values of its question marks.
`Wording.read` reads such a text: a comparison binds tighter than NOT, NOT tighter than AND, and AND
tighter than OR, and the question marks stand for the values from left to right.  The texts of
queries are read as what they were made from, whatever stands in them and around them.
-/

namespace StatusBoard

/-- The text of the condition that a search puts to the database.  The question mark of
the kind is the first. -/
def Query.searchText (q : Query) : String :=
  String.intercalate " AND " ["kind = ?", "deleted_time IS NULL", "(" ++ q.text ++ ")"]

namespace Wording

/-! ## Symbols -/

/-- A question that joins nothing. -/
inductive Leaf where
  | live
  | column (column : Filter.Column) (relation : Filter.Relation)
  | label (relation : Filter.Relation)
  | condition
  deriving DecidableEq, Repr

namespace Leaf

/-- The text of a question. -/
def text : Leaf → String
  | live => "deleted_time IS NULL"
  | column c r => (Clause.column c r).text
  | label r => (Clause.label r).text
  | condition => Clause.condition.text

/-- The number of values that a question takes. -/
def holes : Leaf → Nat
  | live => 0
  | column _ _ => 1
  | label _ | condition => 2

/-- The predicate that a question is, given its values first of all. -/
def predicate (params : List Param) : Leaf → Predicate
  | live => .live
  | column c r => .ofClause params (.column c r)
  | label r => .ofClause params (.label r)
  | condition => .ofClause params .condition

/-- All questions. -/
def all : List Leaf :=
  let relations : List Filter.Relation := [.eq, .ne, .lt, .le, .gt, .ge]
  let columns : List Filter.Column := [.id, .name, .kind, .generation, .createdTime, .updatedTime]
  [live, condition] ++ relations.map label ++ columns.flatMap fun c => relations.map (column c)

theorem mem_all (l : Leaf) : l ∈ all := by
  rcases l with _ | ⟨c, r⟩ | r | _
  · decide
  · cases c <;> cases r <;> decide
  · cases r <;> decide
  · decide

end Leaf

/-- What a text is made of. -/
inductive Symbol where
  | opening
  | closing
  | joint (connective : Connective)
  | not
  | leaf (leaf : Leaf)
  deriving DecidableEq, Repr

namespace Symbol

/-- A symbol as it is written. -/
def text : Symbol → String
  | opening => "("
  | closing => ")"
  | joint .and => "AND"
  | joint .or => "OR"
  | not => "NOT"
  | leaf l => l.text

/-- All symbols. -/
def all : List Symbol :=
  [opening, closing, joint .and, joint .or, not] ++ Leaf.all.map leaf

theorem mem_all (y : Symbol) : y ∈ all := by
  rcases y with _ | _ | (_ | _) | _ | l
  · decide
  · decide
  · decide
  · decide
  · decide
  · exact List.mem_append_right _ (List.mem_map_of_mem l.mem_all)

/-- The symbol that a text starts with. -/
def at? (s : List Char) : Option Symbol :=
  all.find? fun y => y.text.toList.isPrefixOf s

/-- No symbol starts with a blank, or with another symbol. -/
theorem starts_apart : ∀ y ∈ all, (y.text.toList.head?.any fun c => c ≠ ' ') = true ∧
    ∀ z ∈ all, y.text.toList <+: z.text.toList → y = z := by
  decide +kernel

theorem eq_of_isPrefix {y z : Symbol} (h : y.text.toList <+: z.text.toList) : y = z :=
  (starts_apart y y.mem_all).2 z z.mem_all h

theorem at?_text (y : Symbol) (rest : List Char) : at? (y.text.toList ++ rest) = some y := by
  unfold at?
  cases hfind : all.find? fun z => z.text.toList.isPrefixOf (y.text.toList ++ rest) with
  | none =>
      have hnone := List.find?_eq_none.mp hfind y y.mem_all
      rw [List.isPrefixOf_iff_prefix] at hnone
      exact absurd (List.prefix_append _ _) hnone
  | some z =>
      have hprefix := List.find?_some hfind
      rw [List.isPrefixOf_iff_prefix] at hprefix
      obtain hshorter | hlonger :=
        List.prefix_or_prefix_of_prefix hprefix (List.prefix_append _ rest)
      · rw [eq_of_isPrefix hshorter]
      · rw [eq_of_isPrefix hlonger]

end Symbol

/-! ## Reading -/

/-- A predicate negated a number of times. -/
def negate : Nat → Predicate → Predicate
  | 0, part => part
  | n + 1, part => negate n (.negated part)

/-- The parts of an open group that are complete, the latest first, and the negations before the
part that is being read. -/
structure Group where
  disjuncts : List Predicate := []
  conjuncts : List Predicate := []
  negations : Nat := 0

namespace Group

/-- The group with one more part, which takes the waiting negations. -/
def withPart (g : Group) (part : Predicate) : Group :=
  { g with conjuncts := negate g.negations part :: g.conjuncts, negations := 0 }

/-- The group with its conjunction ended. -/
def endConjunction (g : Group) : Group where
  disjuncts := .joined .and g.conjuncts.reverse :: g.disjuncts

/-- What a complete group asks for. -/
def toPredicate (g : Group) : Predicate :=
  .joined .or g.endConjunction.disjuncts.reverse

end Group

/-- Where the reading of a text stands: the innermost open group, the ones around it from the
inside to the outside, the number of question marks so far, and whether a part is expected or
what joins it to others. -/
structure State where
  group : Group := {}
  outer : List Group := []
  marks : Nat := 0
  isReady : Bool := true

namespace State

/-- The state after a part that takes some values. -/
def withPart (s : State) (part : Predicate) (holes : Nat) : State :=
  { s with group := s.group.withPart part, marks := s.marks + holes, isReady := false }

/-- Takes in the next symbol. -/
def step (params : List Param) (s : State) (y : Symbol) : Option State :=
  match y, s.isReady, s.outer with
  | .leaf l, true, _ => some (s.withPart (l.predicate (params.drop s.marks)) l.holes)
  | .not, true, _ => some { s with group := { s.group with negations := s.group.negations + 1 } }
  | .opening, true, _ => some { s with group := {}, outer := s.group :: s.outer }
  | .joint .and, false, _ => some { s with isReady := true }
  | .joint .or, false, _ => some { s with group := s.group.endConjunction, isReady := true }
  | .closing, false, around :: outer =>
      some { s with group := around.withPart s.group.toPredicate, outer }
  | _, _, _ => none

/-- Takes in a text, after some characters of the last symbol that are left. -/
def run (params : List Param) : Nat → State → List Char → Option State
  | 0, s, [] => some s
  | _ + 1, _, [] => none
  | left + 1, s, _ :: cs => run params left s cs
  | 0, s, c :: cs =>
    if c = ' ' then run params 0 s cs
    else match Symbol.at? (c :: cs) with
      | none => none
      | some y => (s.step params y).bind fun s => run params (y.text.toList.length - 1) s cs

/-- What has been read, if it can end here. -/
def finish (s : State) : Option Predicate :=
  if s.isReady || !s.outer.isEmpty then none else some s.group.toPredicate

end State

/-- What a text asks for, given the values of its question marks. -/
def read (params : List Param) (text : String) : Option Predicate :=
  (State.run params 0 {} text.toList).bind State.finish

/-! ## Symbols in a text -/

namespace State

variable (params : List Param)

theorem run_left (s : State) (symbol rest : List Char) :
    run params symbol.length s (symbol ++ rest) = run params 0 s rest := by
  induction symbol with
  | nil => rfl
  | cons c symbol ih => exact ih

theorem run_blank (s : State) (rest : List Char) :
    run params 0 s (' ' :: rest) = run params 0 s rest := by
  rw [run, if_pos rfl]

/-- A symbol is taken in as a whole. -/
theorem run_symbol (s : State) (y : Symbol) (rest : List Char) :
    run params 0 s (y.text.toList ++ rest) =
      (s.step params y).bind fun s => run params 0 s rest := by
  have hat := Symbol.at?_text y rest
  have hhead := (Symbol.starts_apart y y.mem_all).1
  cases htext : y.text.toList with
  | nil =>
      rw [htext] at hhead
      cases hhead
  | cons c cs =>
      rw [htext, List.head?_cons, Option.any_some, decide_eq_true_eq] at hhead
      rw [htext] at hat
      rw [List.cons_append, run, if_neg hhead]
      rw [List.cons_append] at hat
      rw [hat]
      simp only [htext, List.length_cons, Nat.add_sub_cancel, run_left]

end State

/-! ## Phrases -/

/-- A text that takes some values, and what it asks for, given the values first of all. -/
structure Phrase where
  text : String
  holes : Nat
  predicate : List Param → Predicate

namespace Phrase

/-- Wherever a part is expected, the text is read as one that asks for the same. -/
def IsRead (p : Phrase) : Prop :=
  ∀ (params : List Param) (s : State), s.isReady = true → ∃ part : Predicate,
    (∀ r, part.truth r = (p.predicate (params.drop s.marks)).truth r) ∧
      ∀ rest, State.run params 0 s (p.text.toList ++ rest) =
        State.run params 0 (s.withPart part p.holes) rest

/-- Two phrases with the same text that ask for the same are read alike. -/
theorem IsRead.congr {p q : Phrase} (h : p.IsRead) (htext : q.text = p.text)
    (hholes : q.holes = p.holes)
    (htruth : ∀ params r, (q.predicate params).truth r = (p.predicate params).truth r) :
    q.IsRead := by
  intro params s hready
  obtain ⟨part, hpart, hrun⟩ := h params s hready
  refine ⟨part, fun r => (hpart r).trans (htruth _ r).symm, ?_⟩
  rw [htext, hholes]
  exact hrun

/-- The phrase of a question. -/
def ofLeaf (l : Leaf) : Phrase := ⟨l.text, l.holes, fun params => l.predicate params⟩

theorem isRead_ofLeaf (l : Leaf) : (ofLeaf l).IsRead := by
  intro params s hready
  refine ⟨l.predicate (params.drop s.marks), fun r => rfl, fun rest => ?_⟩
  have hrun := State.run_symbol params s (.leaf l) rest
  simp only [State.step, hready, Option.bind_some] at hrun
  exact hrun

/-! ## Several phrases -/

/-- The texts of phrases with a connective between them. -/
def joinedText (connective : Connective) (phrases : List Phrase) : String :=
  String.intercalate connective.text (phrases.map (·.text))

/-- The number of values that several phrases take. -/
def holesOf (phrases : List Phrase) : Nat :=
  (phrases.map (·.holes)).sum

/-- What several phrases ask for that share their values. -/
def predicates (params : List Param) : List Phrase → List Predicate
  | [] => []
  | p :: phrases => p.predicate params :: predicates (params.drop p.holes) phrases

/-- The group in which some parts are complete that a connective joins. -/
def groupOf (connective : Connective) (parts : List Predicate) : Group :=
  match connective with
  | .and => { conjuncts := parts.reverse }
  | .or => { disjuncts := (parts.map fun part => .joined .and [part]).reverse }

/-- A group asks for its parts, joined by the connective. -/
theorem truth_groupOf (connective : Connective) (parts : List Predicate) (last : Predicate)
    (r : ResourceRow) :
    ((groupOf connective parts).withPart last).toPredicate.truth r =
      Predicate.groupTruth connective ((parts ++ [last]).map (Predicate.truth r)) := by
  cases connective with
  | and =>
      simp only [groupOf, Group.withPart, Group.toPredicate, Group.endConjunction,
        Predicate.truth_joined, Predicate.groupTruth, negate, List.reverse_cons, List.reverse_nil,
        List.nil_append, List.reverse_reverse, List.map_cons, List.map_nil, Truth.any_singleton]
  | or =>
      simp only [groupOf, Group.withPart, Group.toPredicate, Group.endConjunction,
        Predicate.truth_joined, Predicate.groupTruth, negate, List.reverse_cons, List.reverse_nil,
        List.nil_append, List.reverse_reverse, List.map_append, List.map_cons, List.map_nil,
        List.map_map, Function.comp_def, Truth.all_singleton]

theorem run_joint (params : List Param) (connective : Connective) (s : State)
    {parts : List Predicate} {last : Predicate}
    (hgroup : s.group = (groupOf connective parts).withPart last) (hready : s.isReady = false)
    (rest : List Char) :
    State.run params 0 s (connective.text.toList ++ rest) =
      State.run params 0
        { s with group := groupOf connective (parts ++ [last]), isReady := true } rest := by
  have htext :
      connective.text.toList = ' ' :: ((Symbol.joint connective).text.toList ++ [' ']) := by
    cases connective <;> decide
  rw [htext, List.cons_append, State.run_blank, List.append_assoc, State.run_symbol]
  obtain ⟨group, outer, marks, isReady⟩ := s
  cases hgroup
  cases hready
  cases connective with
  | and => simp [State.step, State.run_blank, groupOf, negate]
  | or => simp [State.step, State.run_blank, groupOf, Group.endConjunction, negate]

/-- Phrases that a connective joins are read one after the other. -/
theorem run_joined (params : List Param) (connective : Connective) (p : Phrase)
    (phrases : List Phrase) (h : ∀ q ∈ p :: phrases, q.IsRead) (done : List Predicate) (s : State)
    (hgroup : s.group = groupOf connective done) (hready : s.isReady = true) :
    ∃ front last,
      (∀ r, (front ++ [last]).map (Predicate.truth r) =
        (predicates (params.drop s.marks) (p :: phrases)).map (Predicate.truth r)) ∧
      ∀ rest, State.run params 0 s ((joinedText connective (p :: phrases)).toList ++ rest) =
        State.run params 0 {
          s with
          group := (groupOf connective (done ++ front)).withPart last
          marks := s.marks + holesOf (p :: phrases)
          isReady := false } rest := by
  induction phrases generalizing p done s with
  | nil =>
      obtain ⟨part, hpart, hrun⟩ := h p List.mem_cons_self params s hready
      refine ⟨[], part, fun r => ?_, fun rest => ?_⟩
      · simp only [List.nil_append, List.map_cons, List.map_nil, predicates, hpart]
      · rw [joinedText, List.map_singleton, String.intercalate_singleton, hrun,
          List.append_nil, ← hgroup]
        simp [State.withPart, holesOf]
  | cons q phrases ih =>
      obtain ⟨part, hpart, hrun⟩ := h p List.mem_cons_self params s hready
      let next : State :=
        { s with group := groupOf connective (done ++ [part]), marks := s.marks + p.holes }
      obtain ⟨front, last, htruth, hrest⟩ :=
        ih q (fun other hother => h other (List.mem_cons_of_mem _ hother)) (done ++ [part]) next
          rfl hready
      refine ⟨part :: front, last, fun r => ?_, fun rest => ?_⟩
      · rw [List.cons_append, List.map_cons, htruth, hpart]
        conv => rhs; rw [predicates, List.map_cons, List.drop_drop]
      · have htext : joinedText connective (p :: q :: phrases) =
            p.text ++ connective.text ++ joinedText connective (q :: phrases) :=
            String.intercalate_cons_cons
        have hjoint := run_joint params connective (s.withPart part p.holes)
          (congrArg (Group.withPart · part) hgroup) rfl
        rw [htext, String.toList_append, String.toList_append, List.append_assoc,
          List.append_assoc, hrun, hjoint]
        refine (congrArg (State.run params 0 · _) ?_).trans ((hrest rest).trans ?_)
        · simp [next, State.withPart, hready]
        · simp [next, holesOf, Nat.add_assoc]

/-! ## Groups and negations -/

theorem run_opening (params : List Param) (s : State) (hready : s.isReady = true)
    (rest : List Char) :
    State.run params 0 s ('(' :: rest) =
      State.run params 0 { s with group := {}, outer := s.group :: s.outer } rest := by
  have hrun := State.run_symbol params s .opening rest
  simp only [State.step, hready, Option.bind_some] at hrun
  rw [hready]
  exact hrun

theorem run_closing (params : List Param) (s : State) {around : Group} {outer : List Group}
    (houter : s.outer = around :: outer) (hready : s.isReady = false) (rest : List Char) :
    State.run params 0 s (')' :: rest) =
      State.run params 0
        { s with group := around.withPart s.group.toPredicate, outer := outer } rest := by
  have hrun := State.run_symbol params s .closing rest
  simp only [State.step, hready, houter, Option.bind_some] at hrun
  rw [hready]
  exact hrun

/-- Phrases that a connective joins, in parentheses. -/
def joined (connective : Connective) (phrases : List Phrase) : Phrase where
  text := "(" ++ joinedText connective phrases ++ ")"
  holes := holesOf phrases
  predicate params := .joined connective (predicates params phrases)

theorem isRead_joined (connective : Connective) {phrases : List Phrase} (hsome : phrases ≠ [])
    (h : ∀ p ∈ phrases, p.IsRead) : (joined connective phrases).IsRead := by
  obtain ⟨p, more, rfl⟩ := List.exists_cons_of_ne_nil hsome
  intro params s hready
  let inner : State := { s with group := {}, outer := s.group :: s.outer }
  have hempty : inner.group = groupOf connective [] := by cases connective <;> rfl
  obtain ⟨front, last, htruth, hrun⟩ := run_joined params connective p more h [] inner hempty hready
  refine ⟨((groupOf connective front).withPart last).toPredicate, fun r => ?_, fun rest => ?_⟩
  · rw [truth_groupOf, htruth, joined, Predicate.truth_joined]
  · have htext : (joined connective (p :: more)).text.toList ++ rest =
        '(' :: ((joinedText connective (p :: more)).toList ++ ')' :: rest) := by
      simp [joined]
    rw [htext, run_opening params s hready, hrun, run_closing params _ rfl rfl]
    rfl

/-- A phrase negated. -/
def negated (p : Phrase) : Phrase where
  text := "NOT (" ++ p.text ++ ")"
  holes := p.holes
  predicate params := .negated (p.predicate params)

theorem isRead_negated {p : Phrase} (h : p.IsRead) : p.negated.IsRead := by
  intro params s hready
  let denied : State := { s with group := { s.group with negations := s.group.negations + 1 } }
  let inner : State := { denied with group := {}, outer := denied.group :: s.outer }
  obtain ⟨part, hpart, hrun⟩ := h params inner hready
  refine ⟨.negated ((groupOf .and []).withPart part).toPredicate, fun r => ?_, fun rest => ?_⟩
  · rw [Predicate.truth, truth_groupOf, negated, Predicate.truth, List.nil_append,
      List.map_singleton, Predicate.groupTruth, Truth.all_singleton, hpart]
  · have htext : p.negated.text.toList ++ rest =
        Symbol.not.text.toList ++ ' ' :: '(' :: (p.text.toList ++ ')' :: rest) := by
      simp [negated, Symbol.text]
    have hnot : s.step params .not = some denied := by
      simp only [State.step, hready, denied]
    rw [htext, State.run_symbol, hnot, Option.bind_some, State.run_blank,
      run_opening params denied hready, hrun, run_closing params _ rfl rfl]
    rfl

/-! ## Clauses -/

/-- The phrase of a clause. -/
def ofClause (c : Clause) : Phrase := ⟨c.text, c.holes, fun params => .ofClause params c⟩

theorem texts_eq (clauses : List Clause) :
    Clause.texts clauses = (clauses.map ofClause).map (·.text) := by
  induction clauses with
  | nil => rfl
  | cons c clauses ih => rw [Clause.texts, ih]; rfl

theorem holesOfList_eq (clauses : List Clause) :
    Clause.holesOfList clauses = holesOf (clauses.map ofClause) := by
  induction clauses with
  | nil => rfl
  | cons c clauses ih => rw [Clause.holesOfList, ih]; rfl

theorem ofClauses_eq (params : List Param) (clauses : List Clause) :
    Predicate.ofClauses params clauses = predicates params (clauses.map ofClause) := by
  induction clauses generalizing params with
  | nil => rfl
  | cons c clauses ih => rw [Predicate.ofClauses, ih]; rfl

end Phrase
end Wording

namespace Clause

mutual

/-- No group in the clause is empty. -/
def isFull : Clause → Bool
  | joined _ parts => !parts.isEmpty && allFull parts
  | negated part => part.isFull
  | _ => true

/-- No group in several clauses is empty. -/
def allFull : List Clause → Bool
  | [] => true
  | part :: parts => part.isFull && allFull parts

end

theorem allFull_iff {clauses : List Clause} :
    allFull clauses = true ↔ ∀ c ∈ clauses, c.isFull = true := by
  induction clauses with
  | nil => simp [allFull]
  | cons clause clauses ih => rw [allFull, Bool.and_eq_true, ih, List.forall_mem_cons]

end Clause

namespace Wording.Phrase

mutual

/-- The text of a clause is read as what the clause asks for. -/
theorem isRead_ofClause : ∀ c : Clause, c.isFull = true → (ofClause c).IsRead
  | .column c r, _ => isRead_ofLeaf (.column c r)
  | .label r, _ => isRead_ofLeaf (.label r)
  | .condition, _ => isRead_ofLeaf .condition
  | .joined connective parts, h => by
      rw [Clause.isFull, Bool.and_eq_true] at h
      have hsome : parts.map ofClause ≠ [] := by
        intro hnone
        rw [List.map_eq_nil_iff.mp hnone] at h
        cases h.1
      refine (isRead_joined connective hsome (isRead_ofClauses parts h.2)).congr ?_ ?_ ?_
      · rw [ofClause, Clause.text, texts_eq]
        rfl
      · exact holesOfList_eq parts
      · intro params r
        change (Predicate.join connective (Predicate.ofClauses params parts)).truth r = _
        rw [Predicate.truth_join, ofClauses_eq, joined, Predicate.truth_joined]
  | .negated part, h => (isRead_negated (isRead_ofClause part h)).congr rfl rfl fun _ _ => rfl

theorem isRead_ofClauses : ∀ clauses : List Clause, Clause.allFull clauses = true →
    ∀ p ∈ clauses.map ofClause, p.IsRead
  | [], _ => by simp
  | c :: clauses, h => by
      rw [Clause.allFull, Bool.and_eq_true] at h
      intro p hp
      rcases List.mem_cons.mp hp with rfl | hp
      · exact isRead_ofClause c h.1
      · exact isRead_ofClauses clauses h.2 p hp

end

end Wording.Phrase

/-! ## Filters without empty groups -/

namespace Clause

open StatusBoard.Filter (Expr)

mutual

/-- The clause of a filter without empty groups has none either. -/
theorem isFull_ofExpr : ∀ (e : Expr) (clause : Clause) (params : List Param),
    e.hasEmptyGroup = false → Clause.ofExpr e = .ok (clause, params) → clause.isFull = true
  | .compare c, clause, params, _, hclause => by
      unfold ofExpr ofComparison at hclause
      split at hclause
      · obtain ⟨param, -, hclause⟩ := bind_eq_ok_iff.mp hclause
        split at hclause
        · cases hclause
        · cases hclause
          rfl
      · split at hclause
        · cases hclause
          rfl
        · cases hclause
      · cases hclause
      · cases hclause
  | .all parts, _, _, hempty, hclause => by
      obtain ⟨⟨clauses, params⟩, hparts, hclause⟩ := bind_eq_ok_iff.mp hclause
      cases hclause
      rw [Expr.hasEmptyGroup, Bool.or_eq_false_iff] at hempty
      obtain ⟨hfull, hsome⟩ := allFull_ofParts parts clauses _ hempty.2 hparts
      rw [isFull, hsome, hempty.1, hfull]
      rfl
  | .any parts, _, _, hempty, hclause => by
      obtain ⟨⟨clauses, params⟩, hparts, hclause⟩ := bind_eq_ok_iff.mp hclause
      cases hclause
      rw [Expr.hasEmptyGroup, Bool.or_eq_false_iff] at hempty
      obtain ⟨hfull, hsome⟩ := allFull_ofParts parts clauses _ hempty.2 hparts
      rw [isFull, hsome, hempty.1, hfull]
      rfl
  | .not part, _, _, hempty, hclause => by
      obtain ⟨⟨clause, params⟩, hpart, hclause⟩ := bind_eq_ok_iff.mp hclause
      cases hclause
      exact isFull_ofExpr part clause _ hempty hpart

theorem allFull_ofParts : ∀ (parts : List Expr) (clauses : List Clause) (params : List Param),
    Expr.anyEmptyGroup parts = false → Clause.ofParts parts = .ok (clauses, params) →
    allFull clauses = true ∧ clauses.isEmpty = parts.isEmpty
  | [], _, _, _, hclauses => by
      cases hclauses
      exact ⟨rfl, rfl⟩
  | part :: parts, _, _, hempty, hclauses => by
      obtain ⟨⟨clause, params⟩, hpart, hclauses⟩ := bind_eq_ok_iff.mp hclauses
      obtain ⟨⟨clauses, more⟩, hparts, hclauses⟩ := bind_eq_ok_iff.mp hclauses
      cases hclauses
      rw [Expr.anyEmptyGroup, Bool.or_eq_false_iff] at hempty
      rw [allFull, isFull_ofExpr part clause params hempty.1 hpart,
        (allFull_ofParts parts clauses more hempty.2 hparts).1]
      exact ⟨rfl, rfl⟩

end

end Clause

namespace Split

open StatusBoard.Filter (Expr)

theorem anyEmptyGroup_append (parts more : List Expr) :
    Expr.anyEmptyGroup (parts ++ more) = (Expr.anyEmptyGroup parts || Expr.anyEmptyGroup more) := by
  induction parts with
  | nil => rfl
  | cons part parts ih =>
      rw [List.cons_append, Expr.anyEmptyGroup, Expr.anyEmptyGroup, ih, Bool.or_assoc]

/-- What is left of a conjunction without empty groups has none, and is something if a part is. -/
theorem restOf_full {kept : List Expr} (h : Expr.anyEmptyGroup kept = false) :
    Expr.anyEmptyGroup (restOf kept).toList = false ∧ (restOf kept = none → kept = []) := by
  unfold restOf
  split
  · exact ⟨rfl, fun _ => rfl⟩
  · refine ⟨h, ?_⟩
    rintro ⟨⟩
  · rename_i hnone hone
    have hsome : kept.isEmpty = false := by
      cases kept with
      | nil => exact absurd rfl hnone
      | cons part kept => rfl
    refine ⟨?_, ?_⟩
    · rw [Option.toList_some, Expr.anyEmptyGroup, Expr.hasEmptyGroup, hsome, h]
      rfl
    · rintro ⟨⟩

theorem full_ofOffSpine {e : Expr} {split : Split} (hempty : e.hasEmptyGroup = false)
    (h : ofOffSpine e = .ok split) :
    Expr.anyEmptyGroup split.rest.toList = false ∧ (split.rest = none → split.tests ≠ []) := by
  unfold ofOffSpine at h
  split at h
  · cases h
  · cases h
    refine ⟨?_, ?_⟩
    · rw [Option.toList_some, Expr.anyEmptyGroup, hempty]
      rfl
    · rintro ⟨⟩

mutual

/-- A filter without empty groups leaves one that has none, or tests, or both. -/
theorem full_ofExpr : ∀ (e : Expr) (split : Split), e.hasEmptyGroup = false → ofExpr e = .ok split →
    Expr.anyEmptyGroup split.rest.toList = false ∧ (split.rest = none → split.tests ≠ [])
  | .compare c, split, _, h => by
      change ofComparison c = .ok split at h
      unfold ofComparison at h
      split at h
      · obtain ⟨t, -, hsplit⟩ := bind_eq_ok_iff.mp h
        cases hsplit
        exact ⟨rfl, fun _ => List.cons_ne_nil t []⟩
      · cases h
        refine ⟨rfl, ?_⟩
        rintro ⟨⟩
  | .all parts, _, hempty, h => by
      obtain ⟨⟨kept, tests⟩, hparts, hsplit⟩ := bind_eq_ok_iff.mp h
      cases hsplit
      rw [Expr.hasEmptyGroup, Bool.or_eq_false_iff] at hempty
      obtain ⟨hkept, hsome⟩ := full_ofParts parts kept tests hempty.2 hparts
      obtain ⟨hrest, hnone⟩ := restOf_full hkept
      refine ⟨hrest, fun hnothing htests => ?_⟩
      have hparts := hsome (hnone hnothing) htests
      rw [hparts] at hempty
      cases hempty.1
  | .any _, _, hempty, h => full_ofOffSpine hempty h
  | .not _, _, hempty, h => full_ofOffSpine hempty h

theorem full_ofParts : ∀ (parts kept : List Expr) (tests : List ConditionTest),
    Expr.anyEmptyGroup parts = false → ofParts parts = .ok (kept, tests) →
    Expr.anyEmptyGroup kept = false ∧ (kept = [] → tests = [] → parts = [])
  | [], _, _, _, h => by
      cases h
      exact ⟨rfl, fun _ _ => rfl⟩
  | part :: parts, _, _, hempty, h => by
      obtain ⟨split, hpart, h⟩ := bind_eq_ok_iff.mp h
      obtain ⟨⟨kept, tests⟩, hparts, h⟩ := bind_eq_ok_iff.mp h
      cases h
      rw [Expr.anyEmptyGroup, Bool.or_eq_false_iff] at hempty
      obtain ⟨hrest, hsome⟩ := full_ofExpr part split hempty.1 hpart
      refine ⟨?_, fun hkept htests => ?_⟩
      · rw [anyEmptyGroup_append, hrest, (full_ofParts parts kept tests hempty.2 hparts).1]
        rfl
      · have hnothing : split.rest = none := by
          cases hcase : split.rest with
          | none => rfl
          | some rest =>
              rw [hcase] at hkept
              cases hkept
        exact absurd (List.append_eq_nil_iff.mp htests).1 (hsome hnothing)

end

end Split

/-! ## Queries -/

namespace Query

open StatusBoard.Filter (Expr)
open Wording (Phrase)

variable {r : ResourceRow} {x : Resource} {e : Expr} {q : Query}

/-- The query of a filter has clauses, and none of them has an empty group. -/
theorem full_ofExpr (h : ofExpr e = .ok q) : q.parts ≠ [] ∧ ∀ c ∈ q.parts, c.isFull = true := by
  obtain ⟨hempty, split, clauses, params, hsplit, hclauses, hparts, -⟩ := exists_of_ofExpr h
  obtain ⟨hkept, hsome⟩ := Split.full_ofExpr e split hempty hsplit
  obtain ⟨hfull, hlength⟩ := Clause.allFull_ofParts _ clauses params hkept hclauses
  rw [hparts]
  refine ⟨?_, ?_⟩
  · intro hnothing
    obtain ⟨rfl, htests⟩ := List.append_eq_nil_iff.mp hnothing
    refine hsome ?_ (List.map_eq_nil_iff.mp htests)
    simpa using hlength.symm
  · intro c hc
    rcases List.mem_append.mp hc with hc | hc
    · exact Clause.allFull_iff.mp hfull c hc
    · obtain ⟨t, -, rfl⟩ := List.mem_map.mp hc
      rfl

/-- The phrase of a query in parentheses: several clauses are each put in
parentheses of their own. -/
def phrase (q : Query) : Phrase :=
  .joined .and <|
    match q.parts with
    | [part] => [.ofClause part]
    | parts => parts.map fun part => .joined .and [.ofClause part]

theorem text_phrase (q : Query) : q.phrase.text = "(" ++ q.text ++ ")" := by
  obtain ⟨parts, params⟩ := q
  rcases parts with _ | ⟨part, _ | ⟨next, more⟩⟩
  · rfl
  · simp only [phrase, text, Phrase.joined, Phrase.joinedText, Phrase.ofClause,
      List.map_cons, List.map_nil, String.intercalate_singleton]
  · simp only [phrase, text, Phrase.joined, Phrase.joinedText, Phrase.texts_eq,
      Phrase.ofClause, List.map_map, Function.comp_def, List.map_cons, List.map_nil,
      String.intercalate_singleton]
    rfl

theorem isRead_phrase (hsome : q.parts ≠ []) (hfull : ∀ c ∈ q.parts, c.isFull = true) :
    q.phrase.IsRead := by
  have hclause : ∀ c ∈ q.parts, (Phrase.ofClause c).IsRead := by
    intro c hc
    exact Phrase.isRead_ofClause c (hfull c hc)
  unfold phrase
  split
  · rename_i part hone
    apply Phrase.isRead_joined .and (List.cons_ne_nil _ _)
    intro p hp
    rw [List.mem_singleton.mp hp]
    exact hclause part (by simp [hone])
  · apply Phrase.isRead_joined .and (fun hnone => hsome (List.map_eq_nil_iff.mp hnone))
    intro p hp
    obtain ⟨c, hc, rfl⟩ := List.mem_map.mp hp
    apply Phrase.isRead_joined .and (List.cons_ne_nil _ _)
    intro p hp
    rw [List.mem_singleton.mp hp]
    exact hclause c hc

theorem truth_parenthesized (params : List Param) (clauses : List Clause) (r : ResourceRow) :
    (Phrase.predicates params (clauses.map fun c => .joined .and [.ofClause c])).map
        (Predicate.truth r) =
      (Predicate.ofClauses params clauses).map (Predicate.truth r) := by
  induction clauses generalizing params with
  | nil => rfl
  | cons c clauses ih =>
      have hholes : (Phrase.joined .and [.ofClause c]).holes = c.holes := Nat.add_zero _
      rw [List.map_cons, Phrase.predicates, List.map_cons, hholes, ih,
        Predicate.ofClauses, List.map_cons, Phrase.joined, Predicate.truth_joined,
        Predicate.groupTruth, Phrase.predicates, Phrase.predicates,
        List.map_singleton, Truth.all_singleton, Phrase.ofClause]

theorem truth_phrase (q : Query) (params : List Param) (r : ResourceRow) :
    (q.phrase.predicate params).truth r =
      Truth.all ((Predicate.ofClauses params q.parts).map (Predicate.truth r)) := by
  unfold phrase
  split
  · rename_i part hone
    rw [hone, Phrase.joined, Predicate.truth_joined, Predicate.groupTruth]
    rfl
  · rw [Phrase.joined, Predicate.truth_joined, Predicate.groupTruth, truth_parenthesized]

theorem searchText_eq (q : Query) :
    q.searchText =
      Phrase.joinedText .and [.ofLeaf (.column .kind .eq), .ofLeaf .live, q.phrase] := by
  have hkind : (Phrase.ofLeaf (.column .kind .eq)).text = "kind = ?" := by decide +kernel
  rw [Phrase.joinedText, List.map_cons, List.map_cons, List.map_singleton, hkind, text_phrase]
  rfl

/-- The text that a search puts to the database, with the kind and the values of the query for its
question marks, is true of the live rows of the kind whose resources the filter is true of. -/
theorem read_searchText (hquery : ofExpr e = .ok q) (kind : String) :
    ∃ part, Wording.read (.text kind :: q.params) q.searchText = some part ∧
      ∀ (r : ResourceRow) (x : Resource), r.Records x →
        (part.truth r = some true ↔ r.isLive = true ∧ x.kind = kind ∧ e.isTrueOf x = true) := by
  obtain ⟨hsome, hfull⟩ := full_ofExpr hquery
  have hread : ∀ p ∈ [Phrase.ofLeaf (.column .kind .eq), .ofLeaf .live, q.phrase], p.IsRead := by
    intro p hp
    rcases List.mem_cons.mp hp with rfl | hp
    · exact Phrase.isRead_ofLeaf _
    rcases List.mem_cons.mp hp with rfl | hp
    · exact Phrase.isRead_ofLeaf _
    · rw [List.mem_singleton.mp hp]
      exact isRead_phrase hsome hfull
  obtain ⟨front, last, htruth, hrun⟩ := Phrase.run_joined (.text kind :: q.params) .and
    (.ofLeaf (.column .kind .eq)) [.ofLeaf .live, q.phrase] hread [] {} rfl rfl
  refine ⟨((Phrase.groupOf .and front).withPart last).toPredicate, ?_, ?_⟩
  · have hwhole := hrun []
    rw [List.append_nil, ← searchText_eq] at hwhole
    rw [Wording.read, hwhole]
    rfl
  · intro r x hrecords
    have hparts : Predicate.allTrue r (Predicate.ofClauses q.params q.parts) = true ↔
        (q.phrase.predicate q.params).truth r = some true := by
      rw [Predicate.allTrue_iff_all, truth_phrase]
    rw [Phrase.truth_groupOf, htruth, Predicate.groupTruth, Truth.all_eq_true_iff,
      ← allTrue_ofExpr hrecords hquery, hparts, List.forall_mem_map]
    change (∀ p ∈ [Predicate.compare .kind none .eq (.text kind), .live,
      q.phrase.predicate q.params], p.truth r = some true) ↔ _
    rw [List.forall_mem_cons, List.forall_mem_cons, List.forall_mem_singleton, hrecords.truth_kind,
      Predicate.truth, Option.some.injEq, Option.some.injEq, decide_eq_true_eq]
    constructor
    · rintro ⟨hkind, hlive, hphrase⟩
      exact ⟨hlive, hkind, hphrase⟩
    · rintro ⟨hlive, hkind, hphrase⟩
      exact ⟨hkind, hlive, hphrase⟩

end Query
end StatusBoard

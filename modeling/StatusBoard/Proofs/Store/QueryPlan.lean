import StatusBoard.Proofs.Store.Predicate
import StatusBoard.Store.QueryPlan
set_option autoImplicit false

/-!
# Query plan: every plan selects the same rows

How a query goes through the table is chosen by guesses.  None of them matters: a plan that goes
through the branches of a disjunction is only ever chosen for a disjunction, and then, as every
other plan, it selects the rows of which all predicates are true.
-/

namespace StatusBoard.QueryPlan

open Predicate (allTrue allTrue_iff)

/-! ## Plans that fit -/

/-- The plan goes through branches only where there is a disjunction that has them. -/
inductive Fits : List Predicate → QueryPlan → Prop where
  | table {parts : List Predicate} : Fits parts table
  | along {parts : List Predicate} (i : Index) : Fits parts (along i)
  | union {parts disjuncts : List Predicate} {position : Nat}
      {branches : List (List Predicate × QueryPlan)}
      (disjunction : parts[position]? = some (.joined .or disjuncts))
      (covers : branches.map Prod.fst = branchesAt position parts)
      (plans : ∀ branch ∈ branches, Fits branch.1 branch.2) : Fits parts (union position branches)

variable {r : ResourceRow}

theorem allTrue_eq_of_mem_iff {parts others : List Predicate}
    (h : ∀ part, part ∈ parts ↔ part ∈ others) : allTrue r parts = allTrue r others := by
  rw [Bool.eq_iff_iff, allTrue_iff, allTrue_iff]
  simp only [h]

theorem mem_arrange (isAnswered : Predicate → Bool) {parts : List Predicate} {part : Predicate} :
    part ∈ arrange isAnswered parts ↔ part ∈ parts := by
  simp only [arrange, List.partition_eq_filter_filter, List.mem_append, List.mem_filter,
    Function.comp_apply, Bool.not_eq_true']
  cases part.readsRow <;> cases part.isCondition <;> cases isAnswered part <;> simp

/-- The order in which predicates are looked at is no matter. -/
theorem allTrue_arrange (isAnswered : Predicate → Bool) (parts : List Predicate) :
    allTrue r (arrange isAnswered parts) = allTrue r parts :=
  allTrue_eq_of_mem_iff fun _ => mem_arrange isAnswered

theorem someSelect_eq {branches : List (List Predicate × QueryPlan)}
    (h : ∀ branch ∈ branches, branch.2.selects r branch.1 = .ok (allTrue r branch.1)) :
    someSelect r branches = .ok (branches.any fun branch => allTrue r branch.1) := by
  induction branches with
  | nil => rfl
  | cons branch branches ih =>
      obtain ⟨parts, plan⟩ := branch
      have hfirst := h (parts, plan) List.mem_cons_self
      have hrest := ih fun other hother => h other (List.mem_cons_of_mem _ hother)
      simp only [someSelect, hfirst, hrest, bind, Except.bind, pure, Except.pure, List.any_cons]

/-- A branch of a disjunction, with what is shared with it, is true if both are. -/
theorem exists_branch_iff {parts disjuncts : List Predicate} {position : Nat}
    (h : parts[position]? = some (.joined .or disjuncts)) :
    (∃ branch ∈ branchesAt position parts, allTrue r branch = true) ↔
      (Predicate.joined .or disjuncts).truth r = some true ∧
        ∀ part ∈ (parts.zipIdx.filter fun (part, i) => i ≠ position && isShared part).map (·.1),
          part.truth r = some true := by
  have hbranch : ∀ b : Predicate, allTrue r (b.partsOf .and) = true ↔ b.truth r = some true := by
    intro b
    have hpart := Predicate.truth_partsOf (r := r) .and b
    rw [Predicate.allTrue_iff_all]
    exact Eq.congr_left hpart
  rw [branchesAt, h, Predicate.truth_joined, Predicate.groupTruth, Truth.any_eq_true_iff]
  simp only [List.mem_map, exists_exists_and_eq_and]
  constructor
  · rintro ⟨b, hb, htrue⟩
    rw [allTrue_iff, List.forall_mem_append] at htrue
    refine ⟨⟨b, hb, (hbranch b).mp (allTrue_iff.mpr htrue.1)⟩, ?_⟩
    intro part hpart
    exact htrue.2 part (by simpa using hpart)
  · rintro ⟨⟨b, hb, htrue⟩, hshared⟩
    refine ⟨b, hb, ?_⟩
    rw [allTrue_iff, List.forall_mem_append]
    refine ⟨allTrue_iff.mp ((hbranch b).mpr htrue), ?_⟩
    intro part hpart
    exact hshared part (by simpa using hpart)

/-- All predicates are true if one of them is, and all the others are. -/
theorem allTrue_eraseIdx_iff {parts : List Predicate} {position : Nat} {part : Predicate}
    (h : parts[position]? = some part) :
    allTrue r parts = true ↔
      part.truth r = some true ∧ allTrue r (parts.eraseIdx position) = true := by
  rw [allTrue_iff, allTrue_iff]
  constructor
  · intro hall
    exact ⟨hall part (List.mem_of_getElem? h), fun other hother =>
      hall other (List.mem_of_mem_eraseIdx hother)⟩
  · rintro ⟨hpart, hothers⟩ other hother
    obtain ⟨i, hi⟩ := List.getElem?_of_mem hother
    by_cases hsame : i = position
    · rw [hsame, h] at hi
      cases hi
      exact hpart
    · exact hothers other (List.mem_eraseIdx_iff_getElem?.mpr ⟨i, hsame, hi⟩)

/-- Whatever plan is taken for some predicates, it selects a row if all of them are true of it. -/
theorem selects_eq (h : r.IsSound) {parts : List Predicate} {plan : QueryPlan}
    (hfits : Fits parts plan) : plan.selects r parts = .ok (allTrue r parts) := by
  induction hfits with
  | table => rw [selects, Predicate.allHold_eq_allTrue h, allTrue_arrange]
  | along i => rw [selects, Predicate.allHold_eq_allTrue h, allTrue_arrange]
  | @union parts disjuncts position branches disjunction covers plans ih =>
      have hany : (branches.any fun branch => allTrue r branch.1) = true ↔
          ∃ branch ∈ branchesAt position parts, allTrue r branch = true := by
        rw [List.any_eq_true, ← covers]
        simp only [List.mem_map, exists_exists_and_eq_and]
      have hunion : allTrue r parts = (allTrue r (parts.filter fun part => !part.readsRow) &&
          (branches.any fun branch => allTrue r branch.1) &&
            allTrue r (parts.eraseIdx position)) := by
        rw [Bool.eq_iff_iff, Bool.and_eq_true, Bool.and_eq_true, hany,
          exists_branch_iff disjunction, allTrue_eraseIdx_iff disjunction]
        constructor
        · rintro ⟨hdisjunction, hothers⟩
          have hall := allTrue_iff.mp
            ((allTrue_eraseIdx_iff disjunction).mpr ⟨hdisjunction, hothers⟩)
          refine ⟨⟨allTrue_iff.mpr fun part hpart => hall part (List.mem_filter.mp hpart).1,
            hdisjunction, ?_⟩, hothers⟩
          intro part hpart
          obtain ⟨⟨shared, i⟩, hshared, rfl⟩ := List.mem_map.mp hpart
          exact hall shared (List.mem_of_getElem?
            (List.mk_mem_zipIdx_iff_getElem?.mp (List.mem_filter.mp hshared).1))
        · rintro ⟨⟨-, hdisjunction, -⟩, hothers⟩
          exact ⟨hdisjunction, hothers⟩
      rw [hunion, selects, Predicate.allHold_eq_allTrue h, someSelect_eq ih,
        Predicate.allHold_eq_allTrue h, allTrue_arrange]
      cases allTrue r (parts.filter fun part => !part.readsRow) with
      | false => rfl
      | true =>
          cases branches.any fun branch => allTrue r branch.1 with
          | false => rfl
          | true => rfl

/-- Whatever the row holds, and whatever plan is taken: of a row that is selected holds every
predicate that is no disjunction. -/
theorem holds_of_selects {parts : List Predicate} {plan : QueryPlan} (hfits : Fits parts plan)
    (hselected : plan.selects r parts = .ok true) {part : Predicate} (hpart : part ∈ parts)
    (hplain : ∀ disjuncts, part ≠ .joined .or disjuncts) : part.holds r false = .ok true := by
  cases hfits with
  | table => exact Predicate.holds_of_allHold hselected part ((mem_arrange _).mpr hpart)
  | along i => exact Predicate.holds_of_allHold hselected part ((mem_arrange _).mpr hpart)
  | @union _ disjuncts position branches disjunction covers plans =>
      -- The disjunction itself is not looked at again; everything beside it is.
      obtain ⟨i, hi⟩ := List.getElem?_of_mem hpart
      have hother : i ≠ position := by
        rintro rfl
        rw [disjunction] at hi
        exact hplain disjuncts (Option.some.inj hi).symm
      have hbeside := List.mem_eraseIdx_iff_getElem?.mpr ⟨i, hother, hi⟩
      rw [selects] at hselected
      obtain ⟨fixed, -, hselected⟩ := bind_eq_ok_iff.mp hselected
      cases fixed with
      | false => cases hselected
      | true =>
          obtain ⟨some, -, hselected⟩ := bind_eq_ok_iff.mp hselected
          cases some with
          | false => cases hselected
          | true => exact Predicate.holds_of_allHold hselected part ((mem_arrange _).mpr hbeside)

/-! ## Terms of disjunctions -/

theorem getElem?_ofParts (path : List Nat) (isBranch : Bool) (parts : List Predicate)
    (position i : Nat) :
    (Term.ofParts path position isBranch parts)[i]? =
      parts[i]?.map (Term.ofPredicate (path ++ [position + i]) isBranch) := by
  induction parts generalizing position i with
  | nil => rfl
  | cons part parts ih =>
      cases i with
      | zero => rfl
      | succ i =>
          rw [Term.ofParts, List.getElem?_cons_succ, List.getElem?_cons_succ, ih,
            Nat.add_assoc, Nat.add_comm 1]

/-- Only a disjunction has a term that an index can do something with branch by branch. -/
theorem eq_disjunction_of_use {path : List Nat} {part : Predicate}
    (h : (Term.ofPredicate path false part).use = .anyOf) :
    ∃ disjuncts, part = .joined .or disjuncts := by
  cases part with
  | joined connective parts =>
      cases connective with
      | or => exact ⟨parts, rfl⟩
      | and => cases h
  | compare column known relation value => cases relation <;> cases h
  | live | label _ _ _ | condition _ _ | negated _ => cases h

theorem use_membership? {path : List Nat} {position : Nat} {t u : Term}
    (h : Term.membership? path position t = some u) : u.use ≠ .anyOf := by
  unfold Term.membership? at h
  split at h
  · cases h
    intro huse
    cases huse
  · cases h

/-- The position of such a term is that of its disjunction. -/
theorem disjunction_of_term {parts : List Predicate} {t : Term} {i : Nat}
    (h : (Term.ofConjuncts parts)[i]? = some t) (huse : t.use = .anyOf) :
    ∃ disjuncts, parts[i]? = some (.joined .or disjuncts) := by
  unfold Term.ofConjuncts Term.withMemberships at h
  rw [List.getElem?_append] at h
  split at h
  · rw [getElem?_ofParts] at h
    obtain ⟨part, hpart, rfl⟩ := Option.map_eq_some_iff.mp h
    obtain ⟨disjuncts, rfl⟩ := eq_disjunction_of_use huse
    exact ⟨disjuncts, hpart⟩
  · obtain ⟨⟨u, j⟩, -, hmember⟩ := List.mem_filterMap.mp (List.mem_of_getElem? h)
    exact absurd huse (use_membership? hmember)

/-! ## Loops -/

/-- A loop goes through branches only where there is a disjunction. -/
def Loop.Fits (parts : List Predicate) (l : Loop) : Prop :=
  ∀ position, l.access = .union position →
    ∃ disjuncts, parts[position]? = some (.joined .or disjuncts)

theorem access_adjustTo (m l : Loop) : (Loop.adjustTo m l).access = l.access := by
  unfold Loop.adjustTo
  split
  · rfl
  split
  · rfl
  split
  · rfl
  · rfl

theorem access_adjust (loops : List Loop) (l : Loop) : (l.adjust loops).access = l.access := by
  unfold Loop.adjust
  induction loops generalizing l with
  | nil => rfl
  | cons m loops ih => rw [List.foldl_cons, ih, access_adjustTo]

theorem mem_purge {l m : Loop} {loops : List Loop} (h : m ∈ Loops.purge l loops) : m ∈ loops := by
  induction loops with
  | nil => cases h
  | cons first loops ih =>
      rw [Loops.purge] at h
      split at h
      · rcases List.mem_cons.mp h with rfl | h
        · exact List.mem_cons_self
        · exact List.mem_cons_of_mem _ (ih h)
      split at h
      · exact h
      split at h
      · exact List.mem_cons_of_mem _ (ih h)
      · rcases List.mem_cons.mp h with rfl | h
        · exact List.mem_cons_self
        · exact List.mem_cons_of_mem _ (ih h)

theorem mem_place? {l m : Loop} {loops placed : List Loop}
    (hplace : Loops.place? l loops = some placed) (h : m ∈ placed) : m = l ∨ m ∈ loops := by
  induction loops generalizing placed with
  | nil =>
      cases hplace
      exact .inl (List.mem_singleton.mp h)
  | cons first loops ih =>
      have hbehind : ∀ rest, Loops.place? l loops = some rest → placed = first :: rest →
          m = l ∨ m ∈ first :: loops := by
        rintro rest hrest rfl
        rcases List.mem_cons.mp h with rfl | h
        · exact .inr List.mem_cons_self
        · exact (ih hrest h).imp_right (List.mem_cons_of_mem _)
      rw [Loops.place?] at hplace
      split at hplace
      · obtain ⟨rest, hrest, hplaced⟩ := Option.map_eq_some_iff.mp hplace
        exact hbehind rest hrest hplaced.symm
      split at hplace
      · cases hplace
      split at hplace
      · cases hplace
        rcases List.mem_cons.mp h with rfl | h
        · exact .inl rfl
        · exact .inr (List.mem_cons_of_mem _ (mem_purge h))
      · obtain ⟨rest, hrest, hplaced⟩ := Option.map_eq_some_iff.mp hplace
        exact hbehind rest hrest hplaced.symm

/-- A loop that joins others leaves them fitting if it fits itself. -/
theorem fits_insert {parts : List Predicate} {loops : List Loop}
    (h : ∀ l ∈ loops, l.Fits parts) {l : Loop} (hl : l.Fits parts) :
    ∀ m ∈ Loops.insert loops l, m.Fits parts := by
  intro m hm
  unfold Loops.insert at hm
  cases hplace : Loops.place? (l.adjust loops) loops with
  | none =>
      rw [hplace] at hm
      exact h m hm
  | some placed =>
      rw [hplace] at hm
      rcases mem_place? hplace hm with rfl | hm
      · intro position haccess
        rw [access_adjust] at haccess
        exact hl position haccess
      · exact h m hm


/-! ## Loops along an index -/

namespace Search

variable {α : Type} {add : α → Loop → α} {P : α → Prop} {s : Search}

/-- What holds of some loops collected, whichever loop of the search is added, holds
with those of a term. -/
theorem addTerm_holds (hadd : ∀ acc r, P acc → P (add acc (s.loop r)))
    (column : Filter.Column) (r : Reach) (t : Term) {acc : α} (h : P acc) :
    P (s.addTerm add column r t acc).1 := by
  have hbounds : ∀ (bounds : List Term) {acc : α}, P acc → P (bounds.foldl (fun acc u =>
      add acc (s.loop ⟨r.terms ++ [t] ++ [u], rangeRows r.rows 2, r.repeats⟩)) acc) := by
    intro bounds
    induction bounds with
    | nil => exact id
    | cons u bounds ih =>
        intro acc h
        exact ih (hadd _ _ h)
  cases huse : t.use with
  | equal c =>
      simp only [addTerm, huse]
      split
      · exact hadd _ _ h
      · exact h
  | among c count position =>
      simp only [addTerm, huse]
      split
      · exact hadd _ _ h
      · exact h
  | above c =>
      simp only [addTerm, huse]
      split
      · exact hbounds _ (hadd _ _ h)
      · exact h
  | below c =>
      simp only [addTerm, huse]
      split
      · exact hadd _ _ h
      · exact h
  | anyOf | allOf | nothing =>
      simp only [addTerm, huse]
      exact h

theorem addColumns_holds (hadd : ∀ acc r, P acc → P (add acc (s.loop r)))
    (columns : List Filter.Column) (r : Reach) {acc : α} (h : P acc) :
    P (addColumns add s columns r acc) := by
  induction columns generalizing r acc with
  | nil => exact h
  | cons column columns ih =>
      rw [addColumns]
      induction s.candidates generalizing acc with
      | nil => exact h
      | cons t candidates ihterms =>
          have hterm := addTerm_holds hadd column r t h
          rw [List.foldl_cons]
          apply ihterms
          rcases hadded : s.addTerm add column r t acc with ⟨added, reached⟩
          rw [hadded] at hterm
          cases reached with
          | none => exact hterm
          | some reached => exact ih reached hterm

end Search

theorem fits_addLoops {parts : List Predicate} (s : Search) {loops : List Loop}
    (h : ∀ l ∈ loops, l.Fits parts) : ∀ l ∈ Search.addLoops Loops.insert s loops, l.Fits parts := by
  refine Search.addColumns_holds (P := fun loops : List Loop => ∀ l ∈ loops, l.Fits parts) ?_ _ _ h
  intro acc r hacc
  apply fits_insert hacc
  intro position haccess
  cases haccess

/-- All loops for some predicates fit them. -/
theorem fits_loops (isListing : Bool) (parts : List Predicate) :
    ∀ l ∈ loops isListing (Term.ofConjuncts parts), l.Fits parts := by
  unfold loops
  refine List.foldlRecOn (motive := fun found : List Loop => ∀ l ∈ found, l.Fits parts) _ _
    (List.foldlRecOn (motive := fun found : List Loop => ∀ l ∈ found, l.Fits parts) _ _ ?_ ?_) ?_
  · intro l hl position haccess
    cases List.mem_singleton.mp hl
    cases haccess
  · intro found h i _
    exact fits_addLoops _ h
  · rintro found h ⟨t, i⟩ hmem
    simp only
    split
    · rename_i e he
      apply fits_insert h
      intro position haccess
      cases haccess
      have hindexable : t.isIndexable = true := by
        by_contra hnot
        rw [if_neg hnot] at he
        cases he
      have hused := of_decide_eq_true (Bool.and_eq_true_iff.mp hindexable).1
      exact disjunction_of_term (List.mk_mem_zipIdx_iff_getElem?.mp hmem) hused
    · exact h

/-! ## Plans that are chosen -/

theorem mem_cheapest {price : Loop → Price} {loops : List Loop} {l : Loop}
    (h : cheapest price loops = some l) : l ∈ loops := by
  have hfold : ∀ (others : List Loop) (best : Loop),
      others.foldl (fun best l => if (price l).isBelow (price best) then l else best) best ∈
        best :: others := by
    intro others
    induction others with
    | nil =>
        intro best
        exact List.mem_cons_self
    | cons other others ih =>
        intro best
        rw [List.foldl_cons]
        split
        · exact List.mem_cons_of_mem _ (ih other)
        · rcases List.mem_cons.mp (ih best) with hbest | hothers
          · rw [hbest]
            exact List.mem_cons_self
          · exact List.mem_cons_of_mem _ (List.mem_cons_of_mem _ hothers)
  cases loops with
  | nil => cases h
  | cons first loops =>
      cases h
      exact hfold loops first

/-- The plan that follows a fitting loop fits. -/
theorem fits_ofLoop (depth : Nat) (repeats : Magnitude) {parts : List Predicate} {l : Loop}
    (h : l.Fits parts) : Fits parts (ofLoop depth repeats parts l) := by
  induction depth generalizing repeats parts l with
  | zero => exact .table
  | succ depth ih =>
      cases haccess : l.access with
      | table =>
          simp only [ofLoop, haccess]
          exact .table
      | index i =>
          simp only [ofLoop, haccess]
          exact .along i
      | union position =>
          obtain ⟨disjuncts, hdisjuncts⟩ := h position haccess
          simp only [ofLoop, haccess]
          refine .union hdisjuncts (by simp only [List.map_map, Function.comp_def, List.map_id']) ?_
          intro branch hbranch
          obtain ⟨branch, -, rfl⟩ := List.mem_map.mp hbranch
          cases hcheapest : cheapest (Price.ofLoop (repeats + min repeats 48 + l.rows))
              (loops false (Term.ofConjuncts branch)) with
          | none =>
              simp only [Option.elim_none]
              exact .table
          | some inner =>
              simp only [Option.elim_some]
              exact ih _ (fits_loops _ _ _ (mem_cheapest hcheapest))

/-- The plan that is chosen if rows are counted fits. -/
theorem fits_forCount (parts : List Predicate) : Fits parts (forCount parts) := by
  unfold forCount
  simp only
  split
  · exact .along _
  · cases hcheapest : cheapest (Price.ofLoop 0) (loops false (Term.ofConjuncts parts)) with
    | none => exact .table
    | some l => exact fits_ofLoop _ _ (fits_loops _ _ _ (mem_cheapest hcheapest))

/-- The plan that is chosen if rows are listed fits. -/
theorem fits_forListing (parts : List Predicate) : Fits parts (forListing parts).1 := by
  unfold forListing
  simp only
  split
  · exact .along _
  split
  · exact .table
  · rename_i l hcheapest
    have hplan := fits_ofLoop (weightOfList parts) 0 (fits_loops _ _ _ (mem_cheapest hcheapest))
    split
    · exact hplan
    split
    · exact hplan
    · rename_i chosen hchosen
      exact fits_ofLoop (weightOfList parts) 0 (fits_loops _ _ _ (mem_cheapest hchosen))

/-- A row is counted if all predicates are true of it. -/
theorem selects_forCount (h : r.IsSound) (parts : List Predicate) :
    (forCount parts).selects r parts = .ok (allTrue r parts) :=
  selects_eq h (fits_forCount parts)

/-- A row is listed if all predicates are true of it. -/
theorem selects_forListing (h : r.IsSound) (parts : List Predicate) :
    (forListing parts).1.selects r parts = .ok (allTrue r parts) :=
  selects_eq h (fits_forListing parts)

end StatusBoard.QueryPlan

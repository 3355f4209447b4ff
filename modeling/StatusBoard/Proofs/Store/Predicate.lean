import StatusBoard.Proofs.Filter.Truth
import StatusBoard.Proofs.Store.Decoding
import StatusBoard.Store.Predicate
set_option autoImplicit false

/-!
# Store: truth of predicates

On a row without damage, a predicate is computed with two values and comes out as it would with
three, with what is not known replaced.  Neither merging of groups nor values that are put in the
place of columns change whether predicates are true.
-/

namespace StatusBoard

/-- A query finds no damage in the row. -/
structure ResourceRow.IsSound (r : ResourceRow) : Prop where
  labels : ∀ key, ∃ sight, r.labels.member key = .ok sight
  conditions : ∀ type status, ∃ found, r.hasCondition type status = .ok found

theorem ResourceRow.Records.isSound {r : ResourceRow} {x : Resource} (h : r.Records x) :
    r.IsSound where
  labels := fun key => ⟨_, h.member key⟩
  conditions := fun type status => ⟨_, h.hasCondition type status⟩

namespace Predicate

/-! ## Three values -/

mutual

/-- What a predicate is of a row, if no damage is in the way. -/
def truth (r : ResourceRow) : Predicate → Truth
  | compare column known relation value => Cell.relate relation (known.getD (r.cell column)) value
  | live => some r.isLive
  | label key relation value =>
      (r.labels.member key).toOption.bind fun sight => sight.relate relation value
  | condition type status => (r.hasCondition type status).toOption
  | joined .and parts => truthOfAll r parts
  | joined .or parts => truthOfAny r parts
  | negated part => Truth.not (part.truth r)

/-- All of several predicates hold. -/
def truthOfAll (r : ResourceRow) : List Predicate → Truth
  | [] => some true
  | part :: parts => Truth.and (part.truth r) (truthOfAll r parts)

/-- One of several predicates holds. -/
def truthOfAny (r : ResourceRow) : List Predicate → Truth
  | [] => some false
  | part :: parts => Truth.or (part.truth r) (truthOfAny r parts)

end

theorem truthOfAll_eq (r : ResourceRow) (parts : List Predicate) :
    truthOfAll r parts = Truth.all (parts.map (truth r)) := by
  induction parts with
  | nil => rfl
  | cons part parts ih => rw [truthOfAll, ih]; rfl

theorem truthOfAny_eq (r : ResourceRow) (parts : List Predicate) :
    truthOfAny r parts = Truth.any (parts.map (truth r)) := by
  induction parts with
  | nil => rfl
  | cons part parts ih => rw [truthOfAny, ih]; rfl

variable {r : ResourceRow}

mutual

/-- What counts for a predicate is its truth, with a value for what is not known. -/
theorem holds_eq (h : r.IsSound) (unknown : Bool) :
    ∀ part : Predicate, part.holds r unknown = .ok ((part.truth r).getD unknown)
  | compare .. => rfl
  | live => rfl
  | label key relation value => by
      obtain ⟨sight, hsight⟩ := h.labels key
      simp only [holds, truth, hsight, bind, Except.bind, pure, Except.pure, Except.toOption,
        Option.bind_some]
  | condition type status => by
      obtain ⟨found, hfound⟩ := h.conditions type status
      simp only [holds, truth, hfound, Except.toOption, Option.getD_some]
  | joined .and parts => allHold_eq h unknown parts
  | joined .or parts => anyHolds_eq h unknown parts
  | negated part => by
      simp only [holds, truth, holds_eq h (!unknown) part, bind, Except.bind, pure,
        Except.pure, Truth.getD_not]

theorem allHold_eq (h : r.IsSound) (unknown : Bool) :
    ∀ parts : List Predicate, allHold r unknown parts = .ok ((truthOfAll r parts).getD unknown)
  | [] => rfl
  | part :: parts => by
      rw [allHold, holds_eq h unknown part, truthOfAll, Truth.getD_and]
      cases (part.truth r).getD unknown with
      | true => exact allHold_eq h unknown parts
      | false => rfl

theorem anyHolds_eq (h : r.IsSound) (unknown : Bool) :
    ∀ parts : List Predicate, anyHolds r unknown parts = .ok ((truthOfAny r parts).getD unknown)
  | [] => rfl
  | part :: parts => by
      rw [anyHolds, holds_eq h unknown part, truthOfAny, Truth.getD_or]
      cases (part.truth r).getD unknown with
      | true => rfl
      | false => exact anyHolds_eq h unknown parts

end

/-- All of several predicates are true of a row. -/
def allTrue (r : ResourceRow) (parts : List Predicate) : Bool :=
  parts.all fun part => part.truth r = some true

theorem allTrue_iff {parts : List Predicate} :
    allTrue r parts = true ↔ ∀ part ∈ parts, part.truth r = some true := by
  simp [allTrue]

theorem allTrue_iff_all {parts : List Predicate} :
    allTrue r parts = true ↔ Truth.all (parts.map (truth r)) = some true := by
  rw [allTrue_iff, Truth.all_eq_true_iff, List.forall_mem_map]

/-- What is not known counts as false where all have to hold. -/
theorem allHold_eq_allTrue (h : r.IsSound) (parts : List Predicate) :
    allHold r false parts = .ok (allTrue r parts) := by
  have hiff : (truthOfAll r parts).getD false = true ↔ allTrue r parts = true := by
    rw [allTrue_iff_all, truthOfAll_eq]
    cases Truth.all (parts.map (truth r)) <;> simp
  rw [allHold_eq h, Bool.eq_iff_iff.mpr hiff]

/-- Whatever the row holds, of predicates that all hold each holds. -/
theorem holds_of_allHold {unknown : Bool} {parts : List Predicate}
    (h : allHold r unknown parts = .ok true) : ∀ part ∈ parts, part.holds r unknown = .ok true := by
  induction parts with
  | nil => simp
  | cons first parts ih =>
      rw [allHold] at h
      obtain ⟨held, hfirst, h⟩ := bind_eq_ok_iff.mp h
      cases held with
      | false => cases h
      | true => exact List.forall_mem_cons.mpr ⟨hfirst, ih h⟩

/-! ## Groups -/

/-- What a group is, given what its parts are. -/
def groupTruth : Connective → List Truth → Truth
  | .and, parts => Truth.all parts
  | .or, parts => Truth.any parts

/-- What a group of two is. -/
def both : Connective → Truth → Truth → Truth
  | .and => Truth.and
  | .or => Truth.or

theorem truth_joined (connective : Connective) (parts : List Predicate) :
    (joined connective parts).truth r = groupTruth connective (parts.map (truth r)) := by
  cases connective with
  | and => exact truthOfAll_eq r parts
  | or => exact truthOfAny_eq r parts

theorem groupTruth_singleton (connective : Connective) (t : Truth) :
    groupTruth connective [t] = t := by
  cases connective <;> rcases t with _ | _ | _ <;> rfl

/-- A group is what its parts are. -/
theorem truth_partsOf (connective : Connective) (part : Predicate) :
    groupTruth connective ((partsOf connective part).map (truth r)) = part.truth r := by
  cases part with
  | joined c parts =>
      rw [partsOf]
      split
      · rename_i hsame
        rw [← hsame, ← truth_joined]
      · rw [List.map_singleton, groupTruth_singleton]
  | compare _ _ _ _ | live | label _ _ _ | condition _ _ | negated _ =>
      exact groupTruth_singleton connective _

theorem groupTruth_cons (connective : Connective) (t : Truth) (parts : List Truth) :
    groupTruth connective (t :: parts) = both connective t (groupTruth connective parts) := by
  cases connective <;> rfl

theorem groupTruth_append (connective : Connective) (parts more : List Truth) :
    groupTruth connective (parts ++ more) =
      both connective (groupTruth connective parts) (groupTruth connective more) := by
  cases connective with
  | and => exact Truth.all_append parts more
  | or => exact Truth.any_append parts more

/-- Merging groups of one connective changes nothing. -/
theorem groupTruth_flatMap (connective : Connective) (parts : List Predicate) :
    groupTruth connective ((parts.flatMap (partsOf connective)).map (truth r)) =
      groupTruth connective (parts.map (truth r)) := by
  induction parts with
  | nil => rfl
  | cons part parts ih =>
      rw [List.flatMap_cons, List.map_append, groupTruth_append, truth_partsOf, ih, List.map_cons,
        groupTruth_cons]

theorem truth_join (connective : Connective) (parts : List Predicate) :
    (join connective parts).truth r = groupTruth connective (parts.map (truth r)) := by
  rw [join, truth_joined, groupTruth_flatMap]

/-- Conjunctions may be taken apart where all have to hold. -/
theorem allTrue_flatMap (parts : List Predicate) :
    allTrue r (parts.flatMap (partsOf .and)) = allTrue r parts := by
  rw [Bool.eq_iff_iff, allTrue_iff_all, allTrue_iff_all]
  exact Eq.congr_left (groupTruth_flatMap .and parts)

end Predicate

/-! ## Known values -/

/-- The cell is one that equality tells apart from all others of its kind. -/
def Cell.IsPlain : Cell → Prop
  | null | int _ | text _ => True
  | real _ | infinite _ | blob _ => False

theorem Cell.eq_of_relate {a b : Cell} (ha : a.IsPlain) (hb : b.IsPlain)
    (h : Cell.relate .eq a b = some true) : a = b := by
  cases a with
  | null => cases h
  | real _ | infinite _ | blob _ => cases ha
  | int i =>
      cases b with
      | null => cases h
      | real _ | infinite _ | blob _ => cases hb
      | text s => cases h
      | int j =>
          have hcompare : compare i j = .eq := by
            simpa [Cell.relate, Filter.Relation.holds, Cell.order] using h
          rw [Std.compare_eq_iff_eq.mp hcompare]
  | text s =>
      cases b with
      | null => cases h
      | real _ | infinite _ | blob _ => cases hb
      | int i => cases h
      | text t =>
          have hcompare : compareOfLessAndEq s t = .eq := by
            simpa [Cell.relate, Filter.Relation.holds, Cell.order] using h
          unfold compareOfLessAndEq at hcompare
          split at hcompare
          · cases hcompare
          · split at hcompare
            · rename_i heq
              rw [heq]
            · cases hcompare

/-- All columns of a row that can be compared are plain. -/
def ResourceRow.IsPlain (r : ResourceRow) : Prop :=
  ∀ column, (r.cell column).IsPlain

theorem ResourceRow.Records.cell {r : ResourceRow} {x : Resource} (h : r.Records x)
    (column : Filter.Column) : r.cell column = x.column column := by
  cases column with
  | id => exact h.id
  | name => exact h.name
  | kind => exact h.kind
  | generation => exact h.generation
  | createdTime => exact h.createdTime
  | updatedTime => exact h.updatedTime

theorem ResourceRow.Records.isPlain {r : ResourceRow} {x : Resource} (h : r.Records x) :
    r.IsPlain := by
  intro column
  rw [h.cell]
  cases column <;> trivial

namespace Predicate

variable {r : ResourceRow}

/-- The values are those of the row. -/
def Known.Fits (known : Known) (r : ResourceRow) : Prop :=
  ∀ column value, known.lookup column = some value → r.cell column = value

mutual

/-- Values that fit a row change nothing about it. -/
theorem truth_pin {known : Known} (h : known.Fits r) :
    ∀ part : Predicate, (part.pin known).truth r = part.truth r
  | compare column (some old) relation value => rfl
  | compare column none relation value => by
      rw [pin, truth, truth]
      cases hlookup : known.lookup column with
      | none => rfl
      | some found => simp [h column found hlookup]
  | live => rfl
  | label .. => rfl
  | condition .. => rfl
  | joined connective parts => by rw [pin, truth_joined, truth_joined, truth_pinAll h parts]
  | negated part => by rw [pin, truth, truth, truth_pin h part]

theorem truth_pinAll {known : Known} (h : known.Fits r) :
    ∀ parts : List Predicate, (pinAll known parts).map (truth r) = parts.map (truth r)
  | [] => rfl
  | part :: parts => by
      rw [pinAll, List.map_cons, List.map_cons, truth_pin h part, truth_pinAll h parts]

end

theorem truth_pinBefore {known : Known} (h : known.Fits r) (parts : List Predicate) :
    (pinBefore known parts).map (truth r) = parts.map (truth r) := by
  induction parts with
  | nil => rfl
  | cons part parts ih =>
      rw [pinBefore, List.map_cons, List.map_cons, ih]
      split
      · rfl
      · rw [truth_pin h]

theorem gives_eq {part : Predicate} {column : Filter.Column} {value : Cell}
    (h : (column, value) ∈ part.gives) : part = compare column none .eq value := by
  unfold gives at h
  split at h
  · rw [List.mem_singleton] at h
    cases h
    rfl
  · cases h

theorem mem_of_lookup {known : Known} {column : Filter.Column} {value : Cell}
    (h : known.lookup column = some value) : (column, value) ∈ known := by
  obtain ⟨before, after, rfl, -⟩ := List.lookup_eq_some_iff.mp h
  simp

/-- The last predicate that gives a column's value stays as it is. -/
theorem mem_pinBefore_of_lookup {known : Known} {parts : List Predicate}
    {column : Filter.Column} {value : Cell} (h : (given parts).lookup column = some value) :
    compare column none .eq value ∈ pinBefore known parts := by
  induction parts with
  | nil => cases h
  | cons part parts ih =>
      rw [pinBefore]
      rw [given, List.lookup_append] at h
      cases hrest : (given parts).lookup column with
      | some found =>
          rw [hrest, Option.some_or] at h
          cases h
          exact List.mem_cons_of_mem _ (ih hrest)
      | none =>
          rw [hrest, Option.none_or] at h
          have hpart := gives_eq (mem_of_lookup h)
          rw [hpart, if_pos (by simp [gives, hrest])]
          exact List.mem_cons_self

theorem mem_given {parts : List Predicate} {entry : Filter.Column × Cell}
    (h : entry ∈ given parts) : ∃ part ∈ parts, entry ∈ part.gives := by
  induction parts with
  | nil => cases h
  | cons part parts ih =>
      rw [given] at h
      rcases List.mem_append.mp h with h | h
      · obtain ⟨other, hother, hentry⟩ := ih h
        exact ⟨other, List.mem_cons_of_mem _ hother, hentry⟩
      · exact ⟨part, List.mem_cons_self, h⟩

/-- All values that predicates give are plain. -/
def GivePlain (parts : List Predicate) : Prop :=
  ∀ column value, compare column none .eq value ∈ parts → value.IsPlain

/-- Predicates that hold give the values of the row. -/
theorem fits_given {parts : List Predicate} (hrow : r.IsPlain) (hplain : GivePlain parts)
    (h : ∀ column value, (given parts).lookup column = some value →
      (compare column none .eq value).truth r = some true) : Known.Fits (given parts) r := by
  intro column value hlookup
  obtain ⟨part, hpart, hgives⟩ := mem_given (mem_of_lookup hlookup)
  rw [gives_eq hgives] at hpart
  exact Cell.eq_of_relate (hrow column) (hplain column value hpart) (h column value hlookup)

/-- Known values in the place of columns do not change whether all predicates hold. -/
theorem allTrue_pinned {parts : List Predicate} (hrow : r.IsPlain) (hplain : GivePlain parts) :
    allTrue r (pinned parts) = allTrue r parts := by
  have hsame : Known.Fits (given parts) r → allTrue r (pinned parts) = allTrue r parts := by
    intro hfits
    rw [Bool.eq_iff_iff, allTrue_iff_all, allTrue_iff_all, pinned, truth_pinBefore hfits]
  rw [Bool.eq_iff_iff]
  constructor
  · intro hpinned
    have hfits : Known.Fits (given parts) r := by
      apply fits_given hrow hplain
      intro column value hlookup
      exact allTrue_iff.mp hpinned _ (mem_pinBefore_of_lookup hlookup)
    rwa [hsame hfits] at hpinned
  · intro hall
    have hfits : Known.Fits (given parts) r := by
      apply fits_given hrow hplain
      intro column value hlookup
      obtain ⟨part, hpart, hgives⟩ := mem_given (mem_of_lookup hlookup)
      rw [← gives_eq hgives]
      exact allTrue_iff.mp hall part hpart
    rwa [hsame hfits]

end Predicate
end StatusBoard

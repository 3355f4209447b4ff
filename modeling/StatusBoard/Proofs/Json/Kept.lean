import StatusBoard.Proofs.Json.Opaque
set_option autoImplicit false

/-!
# Json: opaque values that are kept as text

Opaque data is kept as its text, and whoever asks for it gets what is read of that.  Such values hold
their members in order and their numbers in range, so that the text tells all of them, except for
numbers with a fraction, whose digits may be read as a neighbouring number.
-/

namespace StatusBoard.Json

/-! ## Values without their fractions -/

mutual

/-- The value with one and the same number in place of all that have a fraction. -/
def Value.blurred : Value → Value
  | .null => .null
  | .bool value => .bool value
  | .number (.whole i) => .number (.whole i)
  | .number (.binary _) => .number (.binary default)
  | .text s => .text s
  | .array items => .array (blurredItems items)
  | .object members => .object (blurredMembers members)

/-- The blurred items of an array. -/
def blurredItems : List Value → List Value
  | [] => []
  | item :: items => item.blurred :: blurredItems items

/-- The members of an object, their values blurred. -/
def blurredMembers : List (String × Value) → List (String × Value)
  | [] => []
  | (key, value) :: members => (key, value.blurred) :: blurredMembers members

end

mutual

/-- A value without fractions is not changed. -/
theorem Value.blurred_of_isWhole : ∀ (v : Value), v.isWhole = true → v.blurred = v
  | .null, _ => rfl
  | .bool _, _ => rfl
  | .number (.whole _), _ => rfl
  | .number (.binary _), h => by cases h
  | .text _, _ => rfl
  | .array items, h => by rw [Value.blurred, blurredItems_of_allWhole items h]
  | .object members, h => by rw [Value.blurred, blurredMembers_of_membersWhole members h]

theorem blurredItems_of_allWhole : ∀ (items : List Value), allWhole items = true →
    blurredItems items = items
  | [], _ => rfl
  | item :: items, h => by
      obtain ⟨hitem, hitems⟩ := Bool.and_eq_true_iff.mp h
      rw [blurredItems, item.blurred_of_isWhole hitem, blurredItems_of_allWhole items hitems]

theorem blurredMembers_of_membersWhole : ∀ (members : List (String × Value)),
    membersWhole members = true → blurredMembers members = members
  | [], _ => rfl
  | (key, value) :: members, h => by
      obtain ⟨hvalue, hmembers⟩ := Bool.and_eq_true_iff.mp h
      rw [blurredMembers, value.blurred_of_isWhole hvalue,
        blurredMembers_of_membersWhole members hmembers]

end

mutual

/-- Blurring leaves a number with a fraction in each place where there was one. -/
theorem Value.isWhole_blurred : ∀ v : Value, v.blurred.isWhole = v.isWhole
  | .null => rfl
  | .bool _ => rfl
  | .number (.whole _) => rfl
  | .number (.binary _) => rfl
  | .text _ => rfl
  | .array items => allWhole_blurredItems items
  | .object members => membersWhole_blurredMembers members

theorem allWhole_blurredItems : ∀ items : List Value,
    allWhole (blurredItems items) = allWhole items
  | [] => rfl
  | item :: items => by
      rw [blurredItems, allWhole, allWhole, item.isWhole_blurred, allWhole_blurredItems items]

theorem membersWhole_blurredMembers : ∀ members : List (String × Value),
    membersWhole (blurredMembers members) = membersWhole members
  | [] => rfl
  | (key, value) :: members => by
      rw [blurredMembers, membersWhole, membersWhole, value.isWhole_blurred,
        membersWhole_blurredMembers members]

end

/-- What is the same as a value without fractions, but for fractions, is the same. -/
theorem Value.eq_of_blurred_eq {v w : Value} (h : w.blurred = v.blurred) (hwhole : v.isWhole = true) :
    w = v := by
  have hother : w.isWhole = true := by rw [← w.isWhole_blurred, h, v.isWhole_blurred, hwhole]
  rw [← w.blurred_of_isWhole hother, h, v.blurred_of_isWhole hwhole]

/-- Data that is the same but for fractions, and has none, is the same. -/
theorem eq_of_map_blurred_eq {written read : Option Value}
    (h : read.map Value.blurred = written.map Value.blurred)
    (hwhole : ∀ v ∈ written, v.isWhole = true) : read = written := by
  cases written with
  | none => exact Option.map_eq_none_iff.mp h
  | some v =>
      obtain ⟨w, rfl, hw⟩ := Option.map_eq_some_iff.mp h
      rw [Value.eq_of_blurred_eq hw (hwhole v rfl)]

/-! ## Tidy values -/

/-- The value is as opaque values are held: its numbers are in range, and its objects have their
members in order, each key once. -/
inductive Value.IsTidy : Value → Prop where
  | null : IsTidy .null
  | bool (value : Bool) : IsTidy (.bool value)
  | number {n : Number} (h : n.InRange) : IsTidy (.number n)
  | text (s : String) : IsTidy (.text s)
  | array {items : List Value} (h : ∀ v ∈ items, IsTidy v) : IsTidy (.array items)
  | object {members : List (String × Value)} (hsorted : Dict.Sorted members)
      (h : ∀ m ∈ members, IsTidy m.2) : IsTidy (.object members)

mutual

/-- What is read of a tree is tidy. -/
theorem isTidy_of_ofTree? : ∀ (depth : Nat) (tree : Tree) {v : Value},
    Value.ofTree? depth tree = some v → v.IsTidy
  | _, .null, v, h => by
      cases h
      exact .null
  | _, .bool value, v, h => by
      cases h
      exact .bool value
  | _, .number numeral, v, h => by
      obtain ⟨n, hn, rfl⟩ := Option.map_eq_some_iff.mp h
      exact .number (inRange_of_toNumber? hn)
  | _, .text value, v, h => by
      obtain ⟨s, -, rfl⟩ := Option.map_eq_some_iff.mp h
      exact .text s
  | 0, .array items, v, h => by cases h
  | depth + 1, .array items, v, h => by
      obtain ⟨values, hvalues, rfl⟩ := Option.map_eq_some_iff.mp h
      exact .array (isTidy_of_itemsOfTrees? depth items hvalues)
  | 0, .object members, v, h => by cases h
  | depth + 1, .object members, v, h => by
      obtain ⟨pairs, hpairs, rfl⟩ := Option.map_eq_some_iff.mp h
      exact .object (Dict.sorted_ofPairs pairs) fun m hm =>
        isTidy_of_membersOfTrees? depth members hpairs m (Dict.mem_of_mem_ofPairs hm)

theorem isTidy_of_itemsOfTrees? : ∀ (depth : Nat) (items : List Tree) {values : List Value},
    itemsOfTrees? depth items = some values → ∀ v ∈ values, v.IsTidy
  | _, [], values, h => by
      cases h
      simp
  | depth, item :: items, values, h => by
      obtain ⟨v, hv, h⟩ := Option.bind_eq_some_iff.mp h
      obtain ⟨rest, hrest, h⟩ := Option.bind_eq_some_iff.mp h
      cases h
      exact List.forall_mem_cons.mpr
        ⟨isTidy_of_ofTree? depth item hv, isTidy_of_itemsOfTrees? depth items hrest⟩

theorem isTidy_of_membersOfTrees? : ∀ (depth : Nat) (members : List (Option String × Tree))
    {pairs : List (String × Value)}, membersOfTrees? depth members = some pairs →
    ∀ m ∈ pairs, m.2.IsTidy
  | _, [], pairs, h => by
      cases h
      simp
  | depth, (key, value) :: members, pairs, h => by
      obtain ⟨name, -, h⟩ := Option.bind_eq_some_iff.mp h
      obtain ⟨v, hv, h⟩ := Option.bind_eq_some_iff.mp h
      obtain ⟨rest, hrest, h⟩ := Option.bind_eq_some_iff.mp h
      cases h
      exact List.forall_mem_cons.mpr
        ⟨isTidy_of_ofTree? depth value hv, isTidy_of_membersOfTrees? depth members hrest⟩

end

/-! ## What is read of their texts -/

/-- A numeral with a fraction or an exponent is that of no whole number. -/
theorem Numeral.toWhole?_eq_none {n : Numeral} (h : n.fraction ≠ [] ∨ n.exponent ≠ []) :
    n.toWhole? = none := by
  have hnot : ¬ (n.fraction.isEmpty && n.exponent.isEmpty) = true := by
    simpa [Classical.not_and_iff_not_or_not, imp_iff_not_or] using h
  rw [toWhole?, if_neg hnot]

/-- The numeral of a number with a fraction is that of no whole number. -/
theorem toWhole?_numeralOfBinary (x : Binary64) : (numeralOfBinary x).toWhole? = none := by
  apply Numeral.toWhole?_eq_none
  unfold numeralOfBinary
  split
  · exact .inl (by simp)
  · rename_i hmantissa
    have hne := (Binary64.isKept_significant (Nat.pos_of_ne_zero hmantissa)).ne_nil
    have hform := isForm_numeralOfDigits x.negative x.significant.1 x.significant.2
    generalize numeralOfDigits x.negative x.significant.1 x.significant.2 = n at hform
    cases hform with
    | whole hpower hplace => exact .inl (by simp)
    | fraction hplace hlow hhigh hpower =>
        refine .inl fun hnone => ?_
        rw [List.drop_eq_nil_iff] at hnone
        omega
    | small zeros => exact .inl (by simp [hne])
    | exponent hplace => exact .inr (by simp)

/-- A number in range is read of its tree, if its fraction is left out of account. -/
theorem Number.InRange.blurred_of_ofTree? {n : Number} (h : n.InRange) {depth : Nat} {w : Value}
    (hread : Value.ofTree? depth (Value.number n).tree = some w) :
    w.blurred = (Value.number n).blurred := by
  cases h with
  | @whole i hlow hhigh =>
      rw [Value.tree, Value.ofTree?, Numeral.toNumber?, toWhole?_numeralOf hlow hhigh] at hread
      cases hread
      rfl
  | @binary x hfinite =>
      rw [Value.tree, Value.ofTree?, Numeral.toNumber?, toWhole?_numeralOfBinary] at hread
      obtain ⟨number, hnumber, rfl⟩ := Option.map_eq_some_iff.mp hread
      obtain ⟨y, -, rfl⟩ := Option.map_eq_some_iff.mp hnumber
      rfl

theorem blurredItems_of_itemsOfTrees? {depth : Nat} {items values : List Value}
    (h : ∀ v ∈ items, ∀ w, Value.ofTree? depth v.tree = some w → w.blurred = v.blurred)
    (hread : itemsOfTrees? depth (treesOf items) = some values) :
    blurredItems values = blurredItems items := by
  induction items generalizing values with
  | nil =>
      cases hread
      rfl
  | cons item items ih =>
      obtain ⟨hitem, hitems⟩ := List.forall_mem_cons.mp h
      obtain ⟨w, hw, hread⟩ := Option.bind_eq_some_iff.mp hread
      obtain ⟨rest, hrest, hread⟩ := Option.bind_eq_some_iff.mp hread
      cases hread
      rw [blurredItems, blurredItems, hitem w hw, ih hitems hrest]

theorem blurredMembers_of_membersOfTrees? {depth : Nat} {members pairs : List (String × Value)}
    (h : ∀ m ∈ members, ∀ w, Value.ofTree? depth m.2.tree = some w → w.blurred = m.2.blurred)
    (hread : membersOfTrees? depth (memberTrees members) = some pairs) :
    blurredMembers pairs = blurredMembers members ∧ Dict.keys pairs = Dict.keys members := by
  induction members generalizing pairs with
  | nil =>
      cases hread
      exact ⟨rfl, rfl⟩
  | cons member members ih =>
      obtain ⟨key, value⟩ := member
      obtain ⟨hmember, hmembers⟩ := List.forall_mem_cons.mp h
      obtain ⟨w, hw, hread⟩ := Option.bind_eq_some_iff.mp hread
      obtain ⟨rest, hrest, hread⟩ := Option.bind_eq_some_iff.mp hread
      cases hread
      obtain ⟨hblurred, hkeys⟩ := ih hmembers hrest
      rw [blurredMembers, blurredMembers, hmember w hw, hblurred, Dict.keys, List.map_cons]
      exact ⟨rfl, congrArg (key :: ·) hkeys⟩

/-- What is read of the tree of a tidy value is that value, fractions apart. -/
theorem Value.IsTidy.blurred_of_ofTree? {v : Value} (h : v.IsTidy) {depth : Nat} {w : Value}
    (hread : ofTree? depth v.tree = some w) : w.blurred = v.blurred := by
  induction h generalizing depth w with
  | null =>
      cases hread
      rfl
  | bool value =>
      cases hread
      rfl
  | number hrange => exact hrange.blurred_of_ofTree? hread
  | text s =>
      cases hread
      rfl
  | @array items _ ih =>
      cases depth with
      | zero => cases hread
      | succ depth =>
          obtain ⟨values, hvalues, rfl⟩ := Option.map_eq_some_iff.mp hread
          rw [blurred, blurred, blurredItems_of_itemsOfTrees? (fun v hv w hw => ih v hv hw) hvalues]
  | @object members hsorted _ ih =>
      cases depth with
      | zero => cases hread
      | succ depth =>
          obtain ⟨pairs, hpairs, rfl⟩ := Option.map_eq_some_iff.mp hread
          obtain ⟨hblurred, hkeys⟩ :=
            blurredMembers_of_membersOfTrees? (fun m hm w hw => ih m hm hw) hpairs
          rw [Dict.ofPairs_of_sorted (Dict.sorted_of_keys hkeys hsorted), blurred, blurred, hblurred]

/-- What is read of the text of a tidy value is that value, fractions apart. -/
theorem Value.IsTidy.blurred_of_decode? {v : Value} (h : v.IsTidy) {w : Value}
    (hread : decode? readValue v.render = some w) : w.blurred = v.blurred := by
  rw [decode?, parse?_render, Option.bind_some] at hread
  exact h.blurred_of_ofTree? hread

/-! ## Dictionaries -/

/-- What is read as a dictionary has its entries in order. -/
theorem sorted_of_readDict {α : Type} {reader : Reader α} {depth : Nat} {tree : Tree} {d : Dict α}
    (h : readDict reader depth tree = some d) : Dict.Sorted d := by
  unfold readDict at h
  split at h
  · obtain ⟨pairs, -, rfl⟩ := Option.map_eq_some_iff.mp h
    exact Dict.sorted_ofPairs pairs
  · cases h

end StatusBoard.Json

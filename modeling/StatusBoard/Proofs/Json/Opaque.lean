import StatusBoard.Proofs.Dict
import StatusBoard.Proofs.Json.Records
set_option autoImplicit false

/-!
# Json: opaque values

Opaque data is read, kept, and read again.  What is read fits: its numbers are in range, and its
nesting is bounded.  And what fits can be read again from the text that is written of it.
-/

namespace StatusBoard.Json

/-! ## Values that fit -/

/-- The number is in the range of those that are read. -/
inductive Number.InRange : Number → Prop where
  | whole {i : Int} (hlow : Int64.minValue.toInt ≤ i) (hhigh : i < UInt64.size) :
      InRange (.whole i)
  | binary {x : Binary64} (hfinite : x.IsFinite) : InRange (.binary x)

/-- The numbers of the value are in range, and it nests at most a number of containers. -/
inductive Value.Fits : Nat → Value → Prop where
  | null (depth : Nat) : Fits depth .null
  | bool (depth : Nat) (value : Bool) : Fits depth (.bool value)
  | number (depth : Nat) {n : Number} (h : n.InRange) : Fits depth (.number n)
  | text (depth : Nat) (value : String) : Fits depth (.text value)
  | array {depth : Nat} {items : List Value} (h : ∀ v ∈ items, Fits depth v) :
      Fits (depth + 1) (.array items)
  | object {depth : Nat} {members : List (String × Value)} (h : ∀ m ∈ members, Fits depth m.2) :
      Fits (depth + 1) (.object members)

/-- What fits a depth fits any larger one. -/
theorem Value.Fits.mono {depth larger : Nat} {v : Value} (h : v.Fits depth)
    (hle : depth ≤ larger) : v.Fits larger := by
  induction h generalizing larger with
  | null _ => exact .null larger
  | bool _ value => exact .bool larger value
  | number _ hrange => exact .number larger hrange
  | text _ value => exact .text larger value
  | array _ ih =>
      obtain ⟨deeper, rfl⟩ := Nat.exists_eq_add_of_lt (Nat.lt_of_succ_le hle)
      exact .array fun v hv => ih v hv (by omega)
  | object _ ih =>
      obtain ⟨deeper, rfl⟩ := Nat.exists_eq_add_of_lt (Nat.lt_of_succ_le hle)
      exact .object fun m hm => ih m hm (by omega)

/-! ## What is read fits -/

theorem inRange_of_toNumber? {numeral : Numeral} {n : Number}
    (h : numeral.toNumber? = some n) : n.InRange := by
  unfold Numeral.toNumber? at h
  split at h
  · rename_i value hwhole
    cases h
    unfold Numeral.toWhole? at hwhole
    dsimp only at hwhole
    split at hwhole
    · split at hwhole
      · split at hwhole
        · rename_i hrange
          cases hwhole
          simp only [Bool.and_eq_true, decide_eq_true_eq] at hrange
          exact .whole hrange.2 (by omega)
        · cases hwhole
      · split at hwhole
        · rename_i hlow
          cases hwhole
          refine .whole ?_ (by exact_mod_cast hlow)
          exact Int.le_trans (show Int64.minValue.toInt ≤ 0 by decide) (Int.natCast_nonneg _)
        · cases hwhole
    · cases hwhole
  · obtain ⟨x, hx, rfl⟩ := Option.map_eq_some_iff.mp h
    exact .binary (Binary64.isFinite_of_ofDecimal? hx)

theorem itemsOfTrees?_eq_mapM (depth : Nat) (items : List Tree) :
    itemsOfTrees? depth items = items.mapM (Value.ofTree? depth) := by
  induction items with
  | nil => rfl
  | cons item items ih =>
      rw [itemsOfTrees?, ih, List.mapM_cons]
      rfl

/-- The member that a tree under a key is read as. -/
def memberOfTree? (depth : Nat) (member : Option String × Tree) : Option (String × Value) := do
  let key ← member.1
  let value ← Value.ofTree? depth member.2
  some (key, value)

theorem membersOfTrees?_eq_mapM (depth : Nat) (members : List (Option String × Tree)) :
    membersOfTrees? depth members = members.mapM (memberOfTree? depth) := by
  induction members with
  | nil => rfl
  | cons member members ih =>
      obtain ⟨key, value⟩ := member
      rw [membersOfTrees?, ih, List.mapM_cons]
      cases key with
      | none => rfl
      | some key => cases hvalue : Value.ofTree? depth value <;> simp [memberOfTree?, hvalue]

mutual

/-- What is read of a tree fits the depth that it is read at. -/
theorem fits_of_ofTree? : ∀ (depth : Nat) (tree : Tree) {v : Value},
    Value.ofTree? depth tree = some v → v.Fits depth
  | depth, .null, v, h => by
      cases h
      exact .null depth
  | depth, .bool value, v, h => by
      cases h
      exact .bool depth value
  | depth, .number numeral, v, h => by
      obtain ⟨n, hn, rfl⟩ := Option.map_eq_some_iff.mp h
      exact .number depth (inRange_of_toNumber? hn)
  | depth, .text value, v, h => by
      obtain ⟨s, -, rfl⟩ := Option.map_eq_some_iff.mp h
      exact .text depth s
  | 0, .array items, v, h => by cases h
  | depth + 1, .array items, v, h => by
      obtain ⟨values, hvalues, rfl⟩ := Option.map_eq_some_iff.mp h
      exact .array (fits_of_itemsOfTrees? depth items hvalues)
  | 0, .object members, v, h => by cases h
  | depth + 1, .object members, v, h => by
      obtain ⟨pairs, hpairs, rfl⟩ := Option.map_eq_some_iff.mp h
      exact .object fun m hm =>
        fits_of_membersOfTrees? depth members hpairs m (Dict.mem_of_mem_ofPairs hm)

theorem fits_of_itemsOfTrees? : ∀ (depth : Nat) (items : List Tree) {values : List Value},
    itemsOfTrees? depth items = some values → ∀ v ∈ values, v.Fits depth
  | depth, [], values, h => by
      cases h
      simp
  | depth, item :: items, values, h => by
      obtain ⟨v, hv, h⟩ := Option.bind_eq_some_iff.mp h
      obtain ⟨rest, hrest, h⟩ := Option.bind_eq_some_iff.mp h
      cases h
      have hfirst := fits_of_ofTree? depth item hv
      have hothers := fits_of_itemsOfTrees? depth items hrest
      exact List.forall_mem_cons.mpr ⟨hfirst, hothers⟩

theorem fits_of_membersOfTrees? : ∀ (depth : Nat) (members : List (Option String × Tree))
    {pairs : List (String × Value)}, membersOfTrees? depth members = some pairs →
    ∀ m ∈ pairs, m.2.Fits depth
  | depth, [], pairs, h => by
      cases h
      simp
  | depth, (key, value) :: members, pairs, h => by
      obtain ⟨name, -, h⟩ := Option.bind_eq_some_iff.mp h
      obtain ⟨v, hv, h⟩ := Option.bind_eq_some_iff.mp h
      obtain ⟨rest, hrest, h⟩ := Option.bind_eq_some_iff.mp h
      cases h
      have hfirst := fits_of_ofTree? depth value hv
      have hothers := fits_of_membersOfTrees? depth members hrest
      exact List.forall_mem_cons.mpr ⟨hfirst, hothers⟩

end

/-! ## What fits is read -/

/-- The value can be read again from the text that is written of it. -/
def Value.IsReadable (v : Value) : Prop :=
  ∃ w, decode? readValue v.render = some w

theorem exists_mapM {α β : Type} {f : α → Option β} {items : List α}
    (h : ∀ x ∈ items, ∃ y, f x = some y) : ∃ ys, items.mapM f = some ys := by
  induction items with
  | nil => exact ⟨[], rfl⟩
  | cons x items ih =>
      obtain ⟨hx, hitems⟩ := List.forall_mem_cons.mp h
      obtain ⟨y, hy⟩ := hx
      obtain ⟨ys, hys⟩ := ih hitems
      exact ⟨y :: ys, by simp [hy, hys]⟩

/-- A number in range is read again. -/
theorem Number.InRange.exists_ofTree? {n : Number} (h : n.InRange) (depth : Nat) :
    ∃ w, Value.ofTree? depth (Value.number n).tree = some w := by
  cases h with
  | whole hlow hhigh =>
      simp only [Value.tree, Value.ofTree?, Numeral.toNumber?, toWhole?_numeralOf hlow hhigh]
      exact ⟨_, rfl⟩
  | binary hfinite =>
      obtain ⟨y, hy⟩ := exists_toBinary? hfinite
      simp only [Value.tree, Value.ofTree?, Numeral.toNumber?]
      split
      · exact ⟨_, rfl⟩
      · rw [hy]
        exact ⟨_, rfl⟩

/-- What fits is read again from its tree. -/
theorem Value.Fits.exists_ofTree? {depth : Nat} {v : Value} (h : v.Fits depth) :
    ∃ w, Value.ofTree? depth v.tree = some w := by
  induction h with
  | null depth => exact ⟨.null, rfl⟩
  | bool depth value => exact ⟨.bool value, rfl⟩
  | number depth hrange => exact hrange.exists_ofTree? depth
  | text depth value => exact ⟨.text value, rfl⟩
  | @array depth items _ ih =>
      have hread : ∀ tree ∈ items.map Value.tree, ∃ w, Value.ofTree? depth tree = some w := by
        intro tree htree
        obtain ⟨item, hitem, rfl⟩ := List.mem_map.mp htree
        exact ih item hitem
      obtain ⟨values, hvalues⟩ := exists_mapM hread
      rw [Value.tree, Value.ofTree?, itemsOfTrees?_eq_mapM, treesOf_eq_map, hvalues]
      exact ⟨_, rfl⟩
  | @object depth members _ ih =>
      have hread : ∀ member ∈ members.map fun m => (some m.1, m.2.tree),
          ∃ pair, memberOfTree? depth member = some pair := by
        intro member hmember
        obtain ⟨m, hm, rfl⟩ := List.mem_map.mp hmember
        obtain ⟨w, hw⟩ := ih m hm
        exact ⟨(m.1, w), by simp [memberOfTree?, hw]⟩
      obtain ⟨pairs, hpairs⟩ := exists_mapM hread
      rw [Value.tree, Value.ofTree?, membersOfTrees?_eq_mapM, memberTrees_eq_map, hpairs]
      exact ⟨_, rfl⟩

/-- What fits is read again from its text. -/
theorem Value.Fits.isReadable {v : Value} (h : v.Fits depthLimit) : v.IsReadable := by
  obtain ⟨w, hw⟩ := h.exists_ofTree?
  exact ⟨w, by rw [decode?, parse?_render, Option.bind_some]; exact hw⟩

end StatusBoard.Json

import StatusBoard.Json.Reader
import StatusBoard.Proofs.Instant.RoundTrip
import StatusBoard.Proofs.Json.TreeOfText
set_option autoImplicit false

/-!
# Json: typed readers on written records

What the writers of scalars, lists and records produce is taken apart again by the readers: a record
that is written with some of its declared fields, each at most once, is read with exactly these.
-/

namespace StatusBoard

/-! ## Repeats -/

theorem firstRepeat?_eq_none_iff (names seen : List String) :
    firstRepeat? names seen = none ↔ names.Nodup ∧ ∀ name ∈ names, name ∉ seen := by
  induction names generalizing seen with
  | nil => simp [firstRepeat?]
  | cons name rest ih =>
      rw [firstRepeat?]
      by_cases hseen : name ∈ seen
      · simp [hseen]
      · rw [if_neg hseen, ih]
        simp only [List.nodup_cons, List.mem_cons, not_or, forall_eq_or_imp]
        constructor
        · rintro ⟨hnodup, hall⟩
          exact ⟨⟨fun hmem => (hall name hmem).1 rfl, hnodup⟩, hseen, fun other hother =>
            (hall other hother).2⟩
        · rintro ⟨⟨hnot, hnodup⟩, -, hall⟩
          refine ⟨hnodup, fun other hother => ⟨?_, hall other hother⟩⟩
          rintro rfl
          exact hnot hother

theorem firstRepeat?_nil_eq_none_iff (names : List String) :
    firstRepeat? names [] = none ↔ names.Nodup := by
  simp [firstRepeat?_eq_none_iff]

theorem firstRepeat?_eq_some_iff (names seen : List String) (name : String) :
    firstRepeat? names seen = some name ↔ ∃ before after, names = before ++ name :: after ∧
      before.Nodup ∧ (∀ other ∈ before, other ∉ seen) ∧ (name ∈ before ∨ name ∈ seen) := by
  induction names generalizing seen with
  | nil => simp [firstRepeat?]
  | cons first rest ih =>
      rw [firstRepeat?]
      by_cases hseen : first ∈ seen
      · rw [if_pos hseen, Option.some.injEq]
        constructor
        · rintro rfl
          exact ⟨[], rest, rfl, List.nodup_nil, by simp, .inr hseen⟩
        · rintro ⟨before, after, hsplit, -, hfresh, -⟩
          cases before with
          | nil => exact (List.cons.inj hsplit).1
          | cons other before =>
              obtain ⟨rfl, -⟩ := List.cons.inj hsplit
              exact absurd hseen (hfresh _ List.mem_cons_self)
      · rw [if_neg hseen, ih]
        constructor
        · rintro ⟨before, after, rfl, hnodup, hfresh, hname⟩
          have hfirst : first ∉ before := fun hmem => hfresh first hmem List.mem_cons_self
          refine ⟨first :: before, after, rfl, List.nodup_cons.mpr ⟨hfirst, hnodup⟩, ?_, ?_⟩
          · exact List.forall_mem_cons.mpr
              ⟨hseen, fun other hother hin => hfresh other hother (List.mem_cons_of_mem _ hin)⟩
          · simpa only [List.mem_cons, or_left_comm, or_assoc] using hname
        · rintro ⟨before, after, hsplit, hnodup, hfresh, hname⟩
          cases before with
          | nil =>
              obtain ⟨rfl, -⟩ := List.cons.inj hsplit
              simp [hseen] at hname
          | cons other before =>
              obtain ⟨rfl, rfl⟩ := List.cons.inj hsplit
              obtain ⟨hfirst, hnodup⟩ := List.nodup_cons.mp hnodup
              refine ⟨before, after, rfl, hnodup, ?_, ?_⟩
              · intro later hlater
                rw [List.mem_cons, not_or]
                refine ⟨?_, hfresh later (List.mem_cons_of_mem _ hlater)⟩
                rintro rfl
                exact hfirst hlater
              · simpa only [List.mem_cons, or_left_comm, or_assoc] using hname

/-- The first name that is repeated is the first that stands among those before it. -/
theorem firstRepeat?_nil_eq_some_iff (names : List String) (name : String) :
    firstRepeat? names [] = some name ↔ ∃ before after, names = before ++ name :: after ∧
      before.Nodup ∧ name ∈ before := by
  simp [firstRepeat?_eq_some_iff]

namespace Json

/-! ## Scalars -/

@[simp] theorem readText_text (depth : Nat) (s : String) :
    readText depth (.text (some s)) = some s := rfl

theorem toWhole?_numeralOf {i : Int} (hlow : Int64.minValue.toInt ≤ i) (hhigh : i < UInt64.size) :
    (numeralOf i).toWhole? = some i := by
  unfold Numeral.toWhole?
  simp only [numeralOf, List.isEmpty_nil, Bool.and_self, if_true, Text.numberOf_toDigits]
  by_cases hneg : i < 0
  · have hvalue : -(i.natAbs : Int) = i := by omega
    have hmagnitude : (decide (0 < i.natAbs) && decide (Int64.minValue.toInt ≤ i)) = true := by
      simp only [Bool.and_eq_true, decide_eq_true_eq]
      omega
    rw [if_pos (by simpa using hneg), hvalue, if_pos hmagnitude]
  · have hmagnitude : i.natAbs < UInt64.size := by omega
    have hvalue : (i.natAbs : Int) = i := by omega
    rw [if_neg (by simpa using hneg), if_pos hmagnitude, hvalue]

@[simp] theorem readInt64_writeInt64 (depth : Nat) (i : Int64) :
    readInt64 depth (writeInt64 i).tree = some i := by
  have hlow := i.minValue_le_toInt
  have hhigh := i.toInt_le
  have hsize : i.toInt < UInt64.size := Int.lt_of_le_of_lt hhigh (by decide)
  simp only [readInt64, readInt, writeInt64, Value.int, Value.tree, toWhole?_numeralOf hlow hsize,
    Option.bind_eq_bind, Option.bind_some, hlow, hhigh, decide_true, Bool.and_self, if_true,
    Int64.ofInt_toInt]

@[simp] theorem readUInt32_writeNat (depth : Nat) (n : UInt32) :
    readUInt32 depth (writeNat n.toNat).tree = some n := by
  have hhigh : (n.toNat : Int) < UInt32.size := Int.ofNat_lt.mpr n.toNat_lt
  have hread : readInt depth (writeNat n.toNat).tree = some (n.toNat : Int) :=
    toWhole?_numeralOf (Int.le_trans (by decide) (Int.natCast_nonneg _))
      (Int.lt_trans hhigh (by decide))
  have hrange :
      (decide (0 ≤ (n.toNat : Int)) && decide ((n.toNat : Int) < UInt32.size)) = true := by
    simp only [Bool.and_eq_true, decide_eq_true_eq]
    exact ⟨Int.natCast_nonneg _, hhigh⟩
  rw [readUInt32, hread, Option.bind_eq_bind, Option.bind_some, if_pos hrange,
    Int.toNat_natCast, UInt32.ofNat_toNat]

@[simp] theorem readInstant_writeInstant (depth : Nat) (t : Instant) :
    readInstant depth (writeInstant t).tree = some t := by
  simp [readInstant, writeInstant, Value.tree]

@[simp] theorem isWhole_writeInt64 (i : Int64) : (writeInt64 i).isWhole = true := rfl
@[simp] theorem isWhole_writeInstant (t : Instant) : (writeInstant t).isWhole = true := rfl

/-! ## Lists -/

theorem exists_of_mem_mapM {α β : Type} {f : α → Option β} {items : List α} {found : List β}
    (h : items.mapM f = some found) : ∀ y ∈ found, ∃ x ∈ items, f x = some y := by
  induction items generalizing found with
  | nil =>
      cases h
      simp
  | cons x items ih =>
      rw [List.mapM_cons] at h
      obtain ⟨y, hy, h⟩ := Option.bind_eq_some_iff.mp h
      obtain ⟨rest, hrest, h⟩ := Option.bind_eq_some_iff.mp h
      cases h
      refine List.forall_mem_cons.mpr ⟨⟨x, List.mem_cons_self, hy⟩, ?_⟩
      intro z hz
      obtain ⟨w, hw, hread⟩ := ih hrest z hz
      exact ⟨w, List.mem_cons_of_mem x hw, hread⟩

theorem mapM_of_left_inverse {α β : Type} {write : α → β} {read : β → Option α} {items : List α}
    (h : ∀ x ∈ items, read (write x) = some x) : (items.map write).mapM read = some items := by
  induction items with
  | nil => rfl
  | cons x items ih =>
      obtain ⟨hx, hitems⟩ := List.forall_mem_cons.mp h
      simp [hx, ih hitems]

/-- A list is read if each of its items is. -/
theorem readList_array {α : Type} {write : α → Value} {reader : Reader α} {depth : Nat}
    {items : List α} (h : ∀ x ∈ items, reader depth (write x).tree = some x) :
    readList reader (depth + 1) (Value.array (items.map write)).tree = some items := by
  rw [Value.tree, treesOf_eq_map, List.map_map, readList]
  exact mapM_of_left_inverse h

/-- Entries are read if each of their values is, and are put in order. -/
theorem readDict_object {α : Type} {write : α → Value} {reader : Reader α} {depth : Nat}
    {d : Dict α} (h : ∀ entry ∈ d, reader depth (write entry.2).tree = some entry.2) :
    readDict reader (depth + 1) (Value.object (d.map fun entry => (entry.1, write entry.2))).tree =
      some (Dict.ofPairs d) := by
  have hmembers : (d.map fun entry => (some entry.1, (write entry.2).tree)).mapM
      (fun (member : Option String × Tree) => do
        let key ← member.1
        let value ← reader depth member.2
        some (key, value)) = some d := by
    refine mapM_of_left_inverse fun entry hentry => ?_
    simp only [Option.bind_eq_bind, Option.bind_some, h entry hentry]
  rw [Value.tree, memberTrees_eq_map, List.map_map, readDict, Function.comp_def, hmembers,
    Option.map_some]

/-! ## Records -/

/-- The value of a member. -/
def memberOf (members : List (String × Value)) (name : String) : Option Value :=
  (members.find? (·.1 = name)).map (·.2)

@[simp] theorem memberOf_nil (name : String) : memberOf [] name = none := rfl

@[simp] theorem memberOf_cons (key : String) (value : Value) (members : List (String × Value))
    (name : String) :
    memberOf ((key, value) :: members) name =
      if key = name then some value else memberOf members name := by
  by_cases h : key = name <;> simp [memberOf, h]

@[simp] theorem memberOf_append (members more : List (String × Value)) (name : String) :
    memberOf (members ++ more) name = (memberOf members name).or (memberOf more name) := by
  simp only [memberOf, List.find?_append]
  cases members.find? (·.1 = name) <;> rfl

@[simp] theorem memberOf_optionalMember {α : Type} (key : String) (write : α → Value) (x : Option α)
    (name : String) :
    memberOf (optionalMember key write x) name = if key = name then x.map write else none := by
  cases x <;> simp [optionalMember]

theorem keys_optionalMember {α : Type} (key : String) (write : α → Value) (x : Option α) :
    ((optionalMember key write x).map (·.1)).Sublist [key] := by
  cases x <;> simp [optionalMember]

theorem membersWhole_append (members more : List (String × Value)) :
    membersWhole (members ++ more) = (membersWhole members && membersWhole more) := by
  induction members with
  | nil => rfl
  | cons member members ih => rw [List.cons_append, membersWhole, membersWhole, ih, Bool.and_assoc]

theorem membersWhole_optionalMember {α : Type} (key : String) {write : α → Value}
    (h : ∀ x, (write x).isWhole = true) (x : Option α) :
    membersWhole (optionalMember key write x) = true := by
  cases x <;> simp [optionalMember, membersWhole, h]

/-- A record that is written with some of its declared fields, each at most once, is read with
these. -/
theorem readFields_object {names : List String} {members : List (String × Value)}
    (hnames : names.Nodup) (hkeys : (members.map (·.1)).Sublist names)
    (style : Style) (depth : Nat) :
    readFields style names (depth + 1) (Value.object members).tree =
      some { depth, entries := members.map fun m => (m.1, m.2.tree) } := by
  have hentries : (memberTrees members).mapM (fun (member : Option String × Tree) =>
      member.1.map fun key => (key, member.2)) = some (members.map fun m => (m.1, m.2.tree)) := by
    induction members with
    | nil => rfl
    | cons member members ih =>
        have hrest := ih ((List.sublist_cons_self _ _).trans hkeys)
        simp [memberTrees, hrest]
  have hdeclared : (members.map fun m => (m.1, m.2.tree)).filter (·.1 ∈ names) =
      members.map fun m => (m.1, m.2.tree) := by
    rw [List.filter_eq_self]
    intro entry hentry
    obtain ⟨member, hmember, rfl⟩ := List.mem_map.mp hentry
    exact decide_eq_true (hkeys.subset (List.mem_map_of_mem hmember))
  have honce :
      (firstRepeat? ((members.map fun m => (m.1, m.2.tree)).map (·.1)) []).isNone = true := by
    rw [List.map_map, Option.isNone_iff_eq_none, firstRepeat?_nil_eq_none_iff]
    exact hkeys.nodup hnames
  simp only [Value.tree, readFields, hentries, hdeclared, honce, Option.bind_eq_bind,
    Option.bind_some, if_true]

/-- The fields that a record was written with. -/
theorem find?_entries (depth : Nat) (members : List (String × Value)) (name : String) :
    Fields.find? { depth, entries := members.map fun m => (m.1, m.2.tree) } name =
      (memberOf members name).map Value.tree := by
  simp only [Fields.find?, memberOf, List.find?_map, Option.map_map, Function.comp_def]

/-- The fields of a record nest one level less than the record. -/
theorem depth_of_readFields {style : Style} {names : List String} {depth : Nat} {tree : Tree}
    {fields : Fields} (h : readFields style names depth tree = some fields) :
    fields.depth + 1 = depth := by
  unfold readFields at h
  split at h
  · obtain ⟨entries, -, h⟩ := Option.bind_eq_some_iff.mp h
    dsimp only at h
    split at h <;> cases h
    rfl
  · split at h <;> cases h
    rfl
  · cases h

/-- A field is read from a tree, or has the value for when it is missing. -/
theorem Fields.of_orDefault {α : Type} {fields : Fields} {name : String} {value found : α}
    {reader : Reader α} (h : fields.orDefault name value reader = some found) :
    found = value ∨ ∃ tree, reader fields.depth tree = some found := by
  unfold orDefault at h
  split at h
  · exact .inr ⟨_, h⟩
  · exact .inl (Option.some.inj h).symm

theorem Fields.of_optional {α : Type} {fields : Fields} {name : String} {found : Option α}
    {reader : Reader α} (h : fields.optional name reader = some found) :
    ∀ x ∈ found, ∃ tree, tree ≠ .null ∧ reader fields.depth tree = some x := by
  intro x hx
  obtain rfl | ⟨tree, htree⟩ := of_orDefault h
  · cases hx
  · unfold readNullable at htree
    split at htree
    · cases htree
      cases hx
    · rename_i hpresent
      obtain ⟨y, hy, rfl⟩ := Option.map_eq_some_iff.mp htree
      cases hx
      exact ⟨_, fun hnull => hpresent hnull, hy⟩

/-- A field that was left out if it had no value is read as it was. -/
theorem optional_entries {α : Type} {reader : Reader α} {write : α → Value} {depth : Nat}
    {members : List (String × Value)} {name : String} {x : Option α}
    (hmember : memberOf members name = x.map write)
    (hread : ∀ y ∈ x, reader depth (write y).tree = some y)
    (hnull : ∀ y ∈ x, (write y).tree ≠ .null) :
    Fields.optional { depth, entries := members.map fun m => (m.1, m.2.tree) } name reader =
      some x := by
  rw [Fields.optional, Fields.orDefault, find?_entries, hmember]
  cases x with
  | none => rfl
  | some y =>
      have hpresent : readNullable reader depth (write y).tree =
          (reader depth (write y).tree).map some := by
        unfold readNullable
        split
        · rename_i htree
          exact absurd htree (hnull y rfl)
        · rfl
      simp only [Option.map_some, hpresent, hread y rfl]

/-- A field that is always written is read as it was. -/
theorem required_entries {α : Type} {reader : Reader α} {depth : Nat}
    {members : List (String × Value)} {name : String} {v : Value} {x : α}
    (hmember : memberOf members name = some v) (hread : reader depth v.tree = some x) :
    Fields.required { depth, entries := members.map fun m => (m.1, m.2.tree) } name reader =
      some x := by
  rw [Fields.required, find?_entries, hmember, Option.map_some, Option.bind_some]
  exact hread

theorem default_entries {α : Type} {reader : Reader α} {depth : Nat}
    {members : List (String × Value)} {name : String} {v : Value} {value x : α}
    (hmember : memberOf members name = some v) (hread : reader depth v.tree = some x) :
    Fields.orDefault { depth, entries := members.map fun m => (m.1, m.2.tree) } name value reader =
      some x := by
  rw [Fields.orDefault, find?_entries, hmember, Option.map_some]
  exact hread

theorem optional_text (depth : Nat) {members : List (String × Value)} {name : String}
    {x : Option String} (h : memberOf members name = x.map .text) :
    Fields.optional { depth, entries := members.map fun m => (m.1, m.2.tree) } name readText =
      some x :=
  optional_entries h (fun _ _ => rfl) (by simp [Value.tree])

theorem optional_instant (depth : Nat) {members : List (String × Value)} {name : String}
    {x : Option Instant} (h : memberOf members name = x.map writeInstant) :
    Fields.optional { depth, entries := members.map fun m => (m.1, m.2.tree) } name readInstant =
      some x :=
  optional_entries h (fun t _ => readInstant_writeInstant depth t)
    (by simp [writeInstant, Value.tree])

end Json
end StatusBoard

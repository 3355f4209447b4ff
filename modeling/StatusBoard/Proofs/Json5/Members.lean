import StatusBoard.Proofs.Json.Records
import StatusBoard.Proofs.Json5.Strict
set_option autoImplicit false

/-!
# Json5: members of written objects

A query that takes a member of an object finds what was written under its name, and as the
text that was written there.
-/

namespace StatusBoard.Json5

open Json (Value escapeChar)

/-- The codes of a text. -/
def codesOf (s : String) : List Nat :=
  s.toList.map Char.toNat

theorem codesOf_inj {s t : String} (h : codesOf s = codesOf t) : s = t := by
  refine String.toList_inj.mp ((List.map_inj_right ?_).mp h)
  intro c d hcode
  exact Char.toNat_inj.mp hcode

theorem compareLex_toNat_eq_lt_iff (s t : List Char) :
    compare (s.map Char.toNat) (t.map Char.toNat) = .lt ↔ s < t := by
  induction s generalizing t with
  | nil =>
      cases t with
      | nil => simp
      | cons d t => simp
  | cons c s ih =>
      cases t with
      | nil => simp
      | cons d t =>
          rw [List.map_cons, List.map_cons, List.compare_cons_cons, Ordering.then_eq_lt, ih,
            List.cons_lt_cons_iff, Nat.compare_eq_lt, Nat.compare_eq_eq, Char.toNat_inj]
          exact Iff.rfl

/-- Texts are ordered as their codes are. -/
theorem compare_codesOf (a b : String) :
    compare (codesOf a) (codesOf b) = compareOfLessAndEq a b := by
  have hlt := compareLex_toNat_eq_lt_iff a.toList b.toList
  rw [← String.lt_iff] at hlt
  unfold compareOfLessAndEq
  split
  · rename_i hless
    exact hlt.mpr hless
  · split
    · rename_i heq
      rw [heq, Std.compare_eq_iff_eq]
    · rename_i hless heq
      cases hcompare : compare (codesOf a) (codesOf b) with
      | lt => exact absurd (hlt.mp hcompare) hless
      | eq => exact absurd (codesOf_inj (Std.compare_eq_iff_eq.mp hcompare)) heq
      | gt => rfl

/-- A text is seen as it was written. -/
theorem sight?_ofText (s : String) : (Node.ofText s).sight? = some (.text (codesOf s)) := by
  rw [Node.ofText, Node.sight?, codes_formOf]
  rfl

theorem codes_takeWhile {s : List Char} (h : '\x00' ∉ s) :
    (s.map Char.toNat).takeWhile (· ≠ 0) = s.map Char.toNat := by
  rw [List.takeWhile_eq_self_iff]
  intro code hcode
  obtain ⟨c, hc, rfl⟩ := List.mem_map.mp hcode
  rw [decide_eq_true_eq]
  intro hzero
  have hchar : c = '\x00' := Char.toNat_inj.mp hzero
  exact h (hchar ▸ hc)

/-- A written name is the key if it is the same text. -/
theorem isNamed_iff {key name : String} (h : '\x00' ∉ name.toList) :
    Node.isNamed key (formOf name.toList) (name.toList.flatMap escapeChar) = true ↔ name = key := by
  have hcodes : name.toList.map Char.toNat = key.toList.map Char.toNat ↔ name = key :=
    ⟨codesOf_inj, fun heq => by rw [heq]⟩
  unfold formOf TextForm.after
  split
  · rename_i hplain
    simp only [flatMap_escapeChar_of_plain hplain, Node.isNamed, decide_eq_true_eq,
      String.toList_inj]
  · simp only [TextForm.withEscape, Node.isNamed, decode_written, codes_takeWhile h, hcodes,
      decide_eq_true_eq]

theorem findMember?_memberNodes {members : List (String × Value)} (key : String)
    (h : ∀ m ∈ members, '\x00' ∉ m.1.toList) :
    Node.findMember? key (memberNodes members) =
      some ((members.find? (·.1 = key)).map fun m => Node.ofValue m.2) := by
  induction members with
  | nil => rfl
  | cons member members ih =>
      obtain ⟨name, value⟩ := member
      have hname := @isNamed_iff key name (h (name, value) List.mem_cons_self)
      have hrest := ih fun m hm => h m (List.mem_cons_of_mem _ hm)
      have hsound : Node.ofValue value ≠ .damaged false := by
        cases value with
        | number n => cases n <;> simp [Node.ofValue]
        | null | bool _ | text _ | array _ | object _ => simp [Node.ofValue, Node.ofText]
      rw [memberNodes, Node.ofText, Node.findMember?]
      · by_cases hkey : name = key
        · rw [if_pos (hname.mpr hkey)]
          simp [hkey]
        · rw [if_neg (fun hnamed => hkey (hname.mp hnamed)),
            List.find?_cons_of_neg (by simpa using hkey)]
          exact hrest
      · exact hsound

/-- What is seen under a key is what was written there first. -/
theorem member?_object {members : List (String × Value)} (key : String)
    (h : ∀ m ∈ members, '\x00' ∉ m.1.toList) :
    (Node.ofValue (.object members)).member? key =
      match Json.memberOf members key with
      | none => some .nothing
      | some value => (Node.ofValue value).sight? := by
  rw [Node.ofValue, Node.member?, findMember?_memberNodes key h, Json.memberOf]
  cases members.find? (·.1 = key) <;> rfl

theorem charOf_toNat (c : Char) : Node.charOf c.toNat = c := by
  have hvalid : c.toNat.isValidChar := c.valid
  rw [Node.charOf, if_pos hvalid, Char.ofNat_toNat]

/-- An element that is an object shows its own members, though its text is read once more. -/
theorem elementMember?_object {members : List (String × Value)}
    (hwhole : (Value.object members).isWhole = true)
    (hnesting : nesting (.object members) ≤ depthLimit) (key : String) :
    Node.elementMember? key (.ofValue (.object members)) =
      (Node.ofValue (.object members)).member? key := by
  have hsight : (Node.ofValue (.object members)).sight? =
      some (.text ((Value.object members).toChars.map Char.toNat)) := by
    have hrender := render_ofValue (.object members) hwhole
    rw [Node.ofValue] at hrender ⊢
    rw [Node.sight?, hrender]
    rfl
    all_goals simp
  have hchars : ((Value.object members).toChars.map Char.toNat).map Node.charOf =
      (Value.object members).toChars := by
    rw [List.map_map]
    refine List.map_id'' ?_ _
    exact charOf_toNat
  rw [Node.elementMember?, hsight]
  simp only [hchars, parse?_toChars hwhole hnesting, Option.bind_some]

end StatusBoard.Json5

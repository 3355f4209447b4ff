import StatusBoard.Text.Decimal
import Mathlib.Algebra.Group.Nat.Defs
set_option autoImplicit false

/-!
# Text: digits read back

Writers of numbers and readers of numbers are inverse to each other.  Fields of a fixed width are
read in full width and whatever follows them; numbers of free width are read up to the first
character that is no digit.
-/

namespace StatusBoard.Text

/-! ## One digit -/

theorem digitChar_eq (n : Nat) : digitChar n = (n % 10).digitChar := by
  have hcases : ∀ d : Fin 10, Char.ofNat ('0'.toNat + d.val) = d.val.digitChar := by decide
  exact hcases ⟨n % 10, Nat.mod_lt n (by decide)⟩

theorem isDigit_eq (c : Char) : isDigit c = c.isDigit := rfl

@[simp] theorem isDigit_digitChar (n : Nat) : isDigit (digitChar n) = true := by
  rw [digitChar_eq, isDigit_eq, Nat.isDigit_digitChar]
  exact decide_eq_true (Nat.mod_lt n (by decide))

@[simp] theorem digitValue_digitChar (n : Nat) : digitValue (digitChar n) = n % 10 := by
  rw [digitChar_eq]
  exact Nat.toNat_digitChar_sub_48_of_lt_ten (Nat.mod_lt n (by decide))

/-! ## Runs of digits -/

theorem numberOf_append (a b : List Char) :
    numberOf (a ++ b) = b.foldl (fun n c => 10 * n + digitValue c) (numberOf a) := by
  rw [numberOf, List.foldl_append]
  rfl

@[simp] theorem numberOf_fixedDigits (width n : Nat) :
    numberOf (fixedDigits width n) = n % 10 ^ width := by
  induction width generalizing n with
  | zero => simp [fixedDigits, numberOf, Nat.mod_one]
  | succ width ih =>
      rw [fixedDigits, numberOf_append, ih]
      simp only [List.foldl_cons, List.foldl_nil, digitValue_digitChar]
      rw [Nat.pow_succ, Nat.mul_comm (10 ^ width) 10, Nat.mod_mul, Nat.add_comm]

theorem isDigit_of_mem_fixedDigits {width n : Nat} {c : Char} (h : c ∈ fixedDigits width n) :
    isDigit c = true := by
  induction width generalizing n with
  | zero => simp [fixedDigits] at h
  | succ width ih =>
      rw [fixedDigits, List.mem_append, List.mem_singleton] at h
      cases h with
      | inl hinit => exact ih hinit
      | inr hlast => rw [hlast, isDigit_digitChar]

theorem isDigit_of_mem_toDigits {n : Nat} {c : Char} (h : c ∈ Nat.toDigits 10 n) :
    isDigit c = true :=
  Nat.isDigit_of_mem_toDigits (by decide) (by decide) h

@[simp] theorem numberOf_toDigits (n : Nat) : numberOf (Nat.toDigits 10 n) = n :=
  Nat.ofDigitChars_ten_toDigits

theorem head?_toDigits_ne_zero {n : Nat} (h : 0 < n) : (Nat.toDigits 10 n).head? ≠ some '0' := by
  induction n using Nat.strongRecOn with
  | ind n ih =>
      rw [Nat.toDigits_eq_if (by decide)]
      split
      · simp only [List.head?_cons, ne_eq, Option.some.injEq, Nat.digitChar_eq_zero]
        omega
      · rename_i hbase
        have hhead := ih (n / 10) (by omega) (by omega)
        obtain ⟨d, ds, hdigits⟩ :=
          List.exists_cons_of_ne_nil (Nat.toDigits_ne_nil (n := n / 10) (b := 10))
        rw [hdigits] at hhead ⊢
        exact hhead

/-! ## Taking digits -/

/-- The text does not start with a digit. -/
def EndsDigits (s : List Char) : Prop :=
  ∀ c ∈ s.head?, isDigit c = false

theorem takeDigits_full {digits : List Char} (h : ∀ c ∈ digits, isDigit c = true)
    (rest : List Char) : takeDigits digits.length (digits ++ rest) = (digits, rest) := by
  induction digits with
  | nil => cases rest <;> rfl
  | cons d digits ih =>
      simp only [List.forall_mem_cons] at h
      simp only [List.length_cons, List.cons_append, takeDigits, h.1, if_true, ih h.2]

theorem takeDigits_free {digits rest : List Char} {limit : Nat}
    (h : ∀ c ∈ digits, isDigit c = true) (hlimit : digits.length ≤ limit)
    (hrest : EndsDigits rest) : takeDigits limit (digits ++ rest) = (digits, rest) := by
  induction digits generalizing limit with
  | nil =>
      cases limit with
      | zero => rfl
      | succ limit =>
          cases rest with
          | nil => rfl
          | cons c rest =>
              have hc : isDigit c = false := hrest c rfl
              simp [takeDigits, hc]
  | cons d digits ih =>
      simp only [List.forall_mem_cons] at h
      cases limit with
      | zero => simp at hlimit
      | succ limit =>
          have htail := @ih limit h.2 (by simpa using hlimit)
          simp only [List.cons_append, takeDigits, h.1, if_true, htail]

/-- A field of a fixed width is read whatever follows it. -/
theorem readNumber_fixedDigits (width n : Nat) (least : Nat) (hleast : least ≤ width)
    (rest : List Char) :
    readNumber least width (fixedDigits width n ++ rest) = some (n % 10 ^ width, rest) := by
  have hdigits : ∀ c ∈ fixedDigits width n, isDigit c = true := by
    intro _ hc
    exact isDigit_of_mem_fixedDigits hc
  have htake := takeDigits_full hdigits rest
  rw [length_fixedDigits] at htake
  simp only [readNumber, htake, length_fixedDigits, hleast, if_true, numberOf_fixedDigits]

/-! ## Padded numbers -/

theorem isDigit_of_mem_paddedDigits {width n : Nat} {c : Char} (h : c ∈ paddedDigits width n) :
    isDigit c = true := by
  rw [paddedDigits, List.mem_append] at h
  cases h with
  | inl hzero => rw [(List.mem_replicate.mp hzero).2]; decide
  | inr hdigit => exact isDigit_of_mem_toDigits hdigit

@[simp] theorem numberOf_paddedDigits (width n : Nat) : numberOf (paddedDigits width n) = n := by
  have hzeros : ∀ k : Nat, numberOf (List.replicate k '0') = 0 := by
    intro k
    have hvalue : numberOf (List.replicate k '0') = 10 ^ k * 0 := Nat.ofDigitChars_replicate_zero
    rw [hvalue, Nat.mul_zero]
  rw [paddedDigits, numberOf_append, hzeros]
  exact numberOf_toDigits n

theorem length_paddedDigits_pos (width n : Nat) : 0 < (paddedDigits width n).length := by
  rw [paddedDigits, List.length_append]
  exact Nat.lt_of_lt_of_le Nat.length_toDigits_pos (Nat.le_add_left _ _)

/-- A padded number is read up to the first character that is no digit. -/
theorem readNumber_paddedDigits (width n : Nat) {limit : Nat} {rest : List Char}
    (hlimit : (paddedDigits width n).length ≤ limit) (hrest : EndsDigits rest) :
    readNumber 1 limit (paddedDigits width n ++ rest) = some (n, rest) := by
  have htake := takeDigits_free (fun c hc => isDigit_of_mem_paddedDigits hc) hlimit hrest
  have hpos : 1 ≤ (paddedDigits width n).length := length_paddedDigits_pos width n
  simp only [readNumber, htake, hpos, if_true, numberOf_paddedDigits]

/-! ## Whole texts -/

/-- The text is a number: digits, with a plus sign before them or without. -/
def IsNumeral (s : List Char) (n : Nat) : Prop :=
  ∃ digits, (s = digits ∨ s = '+' :: digits) ∧ digits ≠ [] ∧ (∀ c ∈ digits, isDigit c = true) ∧
    numberOf digits = n

theorem parseNat?_eq_some_iff {bound n : Nat} {s : List Char} :
    parseNat? bound s = some n ↔ IsNumeral s n ∧ n < bound := by
  have hdigits : ∀ digits : List Char,
      (if !digits.isEmpty && digits.all isDigit && numberOf digits < bound then some (numberOf digits)
        else none) = some n ↔
      digits ≠ [] ∧ (∀ c ∈ digits, isDigit c = true) ∧ numberOf digits = n ∧ n < bound := by
    intro digits
    rw [Option.ite_none_right_eq_some]
    simp only [Bool.and_eq_true, Bool.not_eq_true', List.isEmpty_eq_false_iff, List.all_eq_true,
      decide_eq_true_eq, Option.some.injEq]
    constructor
    · rintro ⟨⟨⟨hsome, hall⟩, hbound⟩, rfl⟩
      exact ⟨hsome, hall, rfl, hbound⟩
    · rintro ⟨hsome, hall, rfl, hbound⟩
      exact ⟨⟨⟨hsome, hall⟩, hbound⟩, rfl⟩
  unfold parseNat?
  rw [hdigits]
  split
  · rename_i rest
    constructor
    · rintro ⟨hsome, hall, hn, hbound⟩
      exact ⟨⟨rest, .inr rfl, hsome, hall, hn⟩, hbound⟩
    · rintro ⟨⟨digits, hs | hs, hsome, hall, hn⟩, hbound⟩
      · have hplus : isDigit '+' = true := hall '+' (hs ▸ List.mem_cons_self)
        cases hplus
      · cases hs
        exact ⟨hsome, hall, hn, hbound⟩
  · rename_i hunsigned
    constructor
    · rintro ⟨hsome, hall, hn, hbound⟩
      exact ⟨⟨s, .inl rfl, hsome, hall, hn⟩, hbound⟩
    · rintro ⟨⟨digits, hs | hs, hsome, hall, hn⟩, hbound⟩
      · exact hs ▸ ⟨hsome, hall, hn, hbound⟩
      · exact absurd hs (hunsigned digits)

end StatusBoard.Text

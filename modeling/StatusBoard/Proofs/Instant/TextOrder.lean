import StatusBoard.Filter.Expr
import StatusBoard.Proofs.Instant.Order
import StatusBoard.Proofs.Json5.Members
set_option autoImplicit false

/-!
# Instant: the order of texts and the order of instants

All fields of a stored text have a fixed width as long as the year has four digits.  Then the text
is one number with signs between its digits, and texts are ordered as instants are, to the
microsecond.  A year with a sign sorts before all of these: a minus is right to do so, and a plus is not.
-/

namespace StatusBoard

/-! ## Orders of several fields -/

/-- Two pairs are ordered alike if the one has its lesser part first whenever the other does. -/
theorem compare_congr {α β : Type} [LinearOrder α] [LinearOrder β] {a b : α} {x y : β}
    (hlt : a < b ↔ x < y) (hgt : b < a ↔ y < x) : compare a b = compare x y := by
  obtain h | h | h := lt_trichotomy a b
  · rw [compare_lt_iff_lt.mpr h, compare_lt_iff_lt.mpr (hlt.mp h)]
  · have hxy : x = y := le_antisymm (not_lt.mp (mt hgt.mpr (by rw [h]; exact lt_irrefl b)))
      (not_lt.mp (mt hlt.mpr (by rw [h]; exact lt_irrefl b)))
    rw [compare_eq_iff_eq.mpr h, compare_eq_iff_eq.mpr hxy]
  · rw [compare_gt_iff_gt.mpr h, compare_gt_iff_gt.mpr (hgt.mp h)]

/-- Two fields are ordered as the number is that has them as its digits. -/
theorem compare_digits (radix : Int) {a b c d : Int} (hc : 0 ≤ c ∧ c < radix) (hd : 0 ≤ d ∧ d < radix) :
    (compare a b).then (compare c d) = compare (a * radix + c) (b * radix + d) := by
  have hless : ∀ {a b c d : Int}, c < radix → 0 ≤ d → a < b →
      a * radix + c < b * radix + d := by
    intro a b c d hc hd hab
    have hradix : 0 ≤ radix := by omega
    calc a * radix + c < (a + 1) * radix := by rw [Int.add_mul, Int.one_mul]; omega
      _ ≤ b * radix := Int.mul_le_mul_of_nonneg_right hab hradix
      _ ≤ b * radix + d := by omega
  obtain h | rfl | h := Int.lt_trichotomy a b
  · rw [Int.compare_eq_lt.mpr h, Int.compare_eq_lt.mpr (hless hc.2 hd.1 h)]
    rfl
  · rw [Int.compare_eq_eq.mpr rfl]
    exact compare_congr (by omega) (by omega)
  · rw [Int.compare_eq_gt.mpr h, Int.compare_eq_gt.mpr (hless hd.2 hc.1 h)]
    rfl

namespace Text

/-! ## Orders of digits -/

/-- The order of two texts, by the codes of their characters. -/
def compareChars (s t : List Char) : Ordering :=
  compare (s.map Char.toNat) (t.map Char.toNat)

theorem compareChars_cons (c d : Char) (s t : List Char) :
    compareChars (c :: s) (d :: t) = (compare c.toNat d.toNat).then (compareChars s t) :=
  List.compare_cons_cons

theorem compareChars_cons_self (c : Char) (s t : List Char) :
    compareChars (c :: s) (c :: t) = compareChars s t := by
  rw [compareChars_cons, Nat.compare_eq_eq.mpr rfl]
  rfl

theorem compareChars_append {a b : List Char} (h : a.length = b.length) (s t : List Char) :
    compareChars (a ++ s) (b ++ t) = (compareChars a b).then (compareChars s t) := by
  induction a generalizing b with
  | nil =>
      cases List.length_eq_zero_iff.mp h.symm
      rfl
  | cons c a ih =>
      cases b with
      | nil => cases h
      | cons d b =>
          rw [List.cons_append, List.cons_append, compareChars_cons, compareChars_cons,
            ih (Nat.succ.inj h), Ordering.then_assoc]

theorem toNat_digitChar (n : Nat) : (digitChar n).toNat = 48 + n % 10 := by
  have hcases : ∀ d : Fin 10, (Char.ofNat ('0'.toNat + d.val)).toNat = 48 + d.val := by decide
  exact hcases ⟨n % 10, Nat.mod_lt n (by decide)⟩

/-- Digits of one width are ordered as the numbers that they write. -/
theorem compareChars_fixedDigits (width n m : Nat) :
    compareChars (fixedDigits width n) (fixedDigits width m) =
      compare ((n % 10 ^ width : Nat) : Int) ((m % 10 ^ width : Nat) : Int) := by
  induction width generalizing n m with
  | zero =>
      rw [Nat.pow_zero, Nat.mod_one, Nat.mod_one, Int.compare_eq_eq.mpr rfl]
      rfl
  | succ width ih =>
      have hlast : compareChars [digitChar n] [digitChar m] =
          compare ((n % 10 : Nat) : Int) ((m % 10 : Nat) : Int) := by
        rw [compareChars_cons, toNat_digitChar, toNat_digitChar]
        exact Ordering.then_eq.trans (compare_congr (by omega) (by omega))
      rw [fixedDigits, fixedDigits, compareChars_append (by simp), ih, hlast,
        compare_digits 10 (by omega) (by omega)]
      rw [Nat.pow_succ, Nat.mul_comm (10 ^ width) 10, Nat.mod_mul, Nat.mod_mul]
      congr 1 <;> omega

/-- A field of fixed width is compared as the number that it writes, and then the rest is. -/
theorem compareChars_field {width n m : Nat} (hn : n < 10 ^ width) (hm : m < 10 ^ width)
    (s t : List Char) :
    compareChars (fixedDigits width n ++ s) (fixedDigits width m ++ t) =
      (compare (n : Int) (m : Int)).then (compareChars s t) := by
  rw [compareChars_append (by simp), compareChars_fixedDigits, Nat.mod_eq_of_lt hn,
    Nat.mod_eq_of_lt hm]

end Text

namespace Instant

open Text (compareChars compareChars_cons compareChars_cons_self compareChars_field fixedDigits)

/-! ## Ranks -/

/-- Instants are ordered by their date, then by the second of the day, then by the rest. -/
theorem compare_rank (a b : Instant) :
    compare a.rank b.rank =
      (compare a.date.year b.date.year).then ((compare (a.date.month : Int) b.date.month).then
        ((compare (a.date.day : Int) b.date.day).then
          ((compare (a.second : Int) b.second).then (compare (a.nano : Int) b.nano)))) := by
  have hmonth := a.date.month_mem
  have hmonth' := b.date.month_mem
  have hday := day_le a.date
  have hday' := day_le b.date
  have hsecond := a.second_lt
  have hsecond' := b.second_lt
  have hnano := a.nano_lt
  have hnano' := b.nano_lt
  rw [rank, rank, ← compare_digits _ (by omega) (by omega), ← compare_digits _ (by omega) (by omega),
    ← compare_digits _ (by omega) (by omega), ← compare_digits _ (by omega) (by omega)]
  simp only [Ordering.then_assoc]

/-- An instant of an earlier year comes first. -/
theorem rank_lt_of_year_lt {a b : Instant} (h : a.date.year < b.date.year) : a.rank < b.rank := by
  rw [← Int.compare_eq_lt, compare_rank, Int.compare_eq_lt.mpr h]
  rfl

/-- Equal ranks mean equal instants. -/
theorem rank_inj {a b : Instant} : a.rank = b.rank ↔ a = b := by
  refine ⟨fun h => ?_, fun h => by rw [h]⟩
  have hsame := compare_rank a b
  rw [Int.compare_eq_eq.mpr h] at hsame
  obtain ⟨hyear, hmonth, hday, hsecond, hnano⟩ := by
    simpa only [Ordering.then_eq_eq, Int.compare_eq_eq, Int.ofNat_inj] using hsame.symm
  obtain ⟨⟨⟩⟩ := a
  obtain ⟨⟨⟩⟩ := b
  simp_all

/-! ## Texts -/

/-- Hours, minutes, seconds and microseconds are ordered as the time of the day is: in a leap
second the seconds are sixty. -/
theorem compare_clock (a b : Instant) :
    (compare ((a.second / 3600 : Nat) : Int) (b.second / 3600 : Nat)).then
      ((compare ((a.second / 60 % 60 : Nat) : Int) (b.second / 60 % 60 : Nat)).then
        ((compare ((a.second % 60 + a.nano / 1000000000 : Nat) : Int)
            (b.second % 60 + b.nano / 1000000000 : Nat)).then
          (compare ((a.nano % 1000000000 / 1000 : Nat) : Int)
            (b.nano % 1000000000 / 1000 : Nat)))) =
      (compare (a.second : Int) b.second).then
        (compare (a.truncateMicros.nano : Int) b.truncateMicros.nano) := by
  have hleap := a.leap
  have hleap' := b.leap
  have hnano := a.nano_lt
  have hnano' := b.nano_lt
  have hminutes : (compare ((a.second / 3600 : Nat) : Int) (b.second / 3600 : Nat)).then
      (compare ((a.second / 60 % 60 : Nat) : Int) (b.second / 60 % 60 : Nat)) =
        compare ((a.second / 60 : Nat) : Int) (b.second / 60 : Nat) := by
    rw [compare_digits 60 (by omega) (by omega)]
    exact compare_congr (by omega) (by omega)
  have hseconds : compare (a.second : Int) b.second =
      (compare ((a.second / 60 : Nat) : Int) (b.second / 60 : Nat)).then
        (compare ((a.second % 60 : Nat) : Int) (b.second % 60 : Nat)) := by
    rw [compare_digits 60 (by omega) (by omega)]
    exact compare_congr (by omega) (by omega)
  rw [← Ordering.then_assoc, hminutes, hseconds, Ordering.then_assoc]
  congr 1
  -- Within a minute, a leap second is the last of all in both forms.
  rw [compare_digits 1000000 (by omega) (by omega)]
  simp only [truncateMicros]
  rw [compare_digits 2000000000 (by omega) (by omega)]
  exact compare_congr (by omega) (by omega)

theorem yearText_of_unsigned {year : Int} (h : 0 ≤ year ∧ year ≤ 9999) :
    yearText year = fixedDigits 4 year.toNat := by
  rw [yearText, if_pos (by simpa using h)]

/-- Texts whose years have four digits are ordered as the instants are, to the microsecond. -/
theorem compareChars_unsigned {a b : Instant} (ha : 0 ≤ a.date.year ∧ a.date.year ≤ 9999)
    (hb : 0 ≤ b.date.year ∧ b.date.year ≤ 9999) :
    compareChars a.toStorageChars b.toStorageChars =
      compare a.truncateMicros.rank b.truncateMicros.rank := by
  have hsecond := a.second_lt
  have hsecond' := b.second_lt
  have hend : compareChars ['Z'] ['Z'] = .eq := rfl
  simp only [toStorageChars, wholeText, yearText_of_unsigned ha, yearText_of_unsigned hb,
    List.append_assoc, List.cons_append]
  rw [compareChars_field (by omega) (by omega), compareChars_cons_self,
    compareChars_field (month_lt a.date) (month_lt b.date), compareChars_cons_self,
    compareChars_field (day_lt a.date) (day_lt b.date), compareChars_cons_self,
    compareChars_field (by omega) (by omega), compareChars_cons_self,
    compareChars_field (by omega) (by omega), compareChars_cons_self,
    compareChars_field (second_field_lt a) (second_field_lt b), compareChars_cons_self,
    compareChars_field (by omega) (by omega), hend, Ordering.then_eq, compare_clock, compare_rank,
    Int.toNat_of_nonneg ha.1, Int.toNat_of_nonneg hb.1]
  rfl

/-- A stored text starts with its year. -/
theorem exists_toStorageChars_eq (t : Instant) :
    ∃ rest, t.toStorageChars = yearText t.date.year ++ rest := by
  simp only [toStorageChars, wholeText, List.append_assoc]
  exact ⟨_, rfl⟩

/-- A sign sorts before every digit. -/
theorem compareChars_signed {a b : Instant} (ha : 0 ≤ a.date.year ∧ a.date.year ≤ 9999)
    (hb : ¬ (0 ≤ b.date.year ∧ b.date.year ≤ 9999)) :
    compareChars a.toStorageChars b.toStorageChars = .gt := by
  obtain ⟨fields, hfields⟩ := exists_toStorageChars_eq a
  obtain ⟨others, hothers⟩ := exists_toStorageChars_eq b
  have hsign : (if b.date.year < 0 then '-' else '+').toNat < 48 := by split <;> decide
  rw [yearText_of_unsigned ha] at hfields
  rw [yearText, if_neg (by simpa using hb), List.cons_append] at hothers
  cases hdigits : fixedDigits 4 a.date.year.toNat ++ fields with
  | nil =>
      have hlength := congrArg List.length hdigits
      rw [List.length_append, Text.length_fixedDigits, List.length_nil] at hlength
      omega
  | cons digit rest =>
      have hdigit : Text.isDigit digit = true :=
        head_fixedDigits (show 0 < 4 by decide) (by rw [hdigits]; rfl)
      have hcode : 48 ≤ digit.toNat := by
        rw [Text.isDigit, Bool.and_eq_true, decide_eq_true_eq] at hdigit
        exact UInt32.le_iff_toNat_le.mp hdigit.1
      rw [hfields, hothers, hdigits, compareChars_cons, Nat.compare_eq_gt.mpr (by omega)]
      rfl

theorem compareOfLessAndEq_toStorageText (a b : Instant) :
    compareOfLessAndEq a.toStorageText b.toStorageText =
      compareChars a.toStorageChars b.toStorageChars := by
  rw [← Json5.compare_codesOf, Json5.codesOf, Json5.codesOf, toStorageText, toStorageText,
    String.toList_ofList, String.toList_ofList]
  rfl

/-- A text whose year has four digits is compared with that of an instant up to the year 9999 as the
instants are, to the microsecond. -/
theorem order_of_early {a b : Instant} (ha : 0 ≤ a.date.year ∧ a.date.year ≤ 9999)
    (hb : b.date.year ≤ 9999) :
    compareOfLessAndEq a.toStorageText b.toStorageText =
      compare a.truncateMicros.rank b.truncateMicros.rank := by
  rw [compareOfLessAndEq_toStorageText]
  by_cases hnegative : 0 ≤ b.date.year
  · exact compareChars_unsigned ha ⟨hnegative, hb⟩
  · have hrank : b.truncateMicros.rank < a.truncateMicros.rank :=
      rank_lt_of_year_lt (show b.date.year < a.date.year by omega)
    rw [compareChars_signed ha (by omega), Int.compare_eq_gt.mpr hrank]

/-- With an instant of a later year it is compared the wrong way round. -/
theorem order_of_late {a b : Instant} (ha : 0 ≤ a.date.year ∧ a.date.year ≤ 9999)
    (hb : 9999 < b.date.year) :
    compareOfLessAndEq a.toStorageText b.toStorageText = .gt ∧
      compare a.truncateMicros.rank b.truncateMicros.rank = .lt := by
  have hrank : a.truncateMicros.rank < b.truncateMicros.rank :=
    rank_lt_of_year_lt (show a.date.year < b.date.year by omega)
  rw [compareOfLessAndEq_toStorageText, compareChars_signed ha (by omega),
    Int.compare_eq_lt.mpr hrank]
  exact ⟨rfl, rfl⟩

end Instant

/-! ## Relations -/

namespace Filter.Relation

/-- The relation holds of two instants. -/
def Relates : Relation → Instant → Instant → Prop
  | .eq, a, b => a = b
  | .ne, a, b => a ≠ b
  | .lt, a, b => a < b
  | .le, a, b => a ≤ b
  | .gt, a, b => b < a
  | .ge, a, b => b ≤ a

theorem relates_iff (r : Relation) (a b : Instant) :
    r.Relates a b ↔ r.holds (compare a.rank b.rank) = true := by
  have hlt : a < b ↔ a.rank < b.rank := Iff.rfl
  have hgt : b < a ↔ b.rank < a.rank := Iff.rfl
  have hle : a ≤ b ↔ a.rank ≤ b.rank := Iff.rfl
  have hge : b ≤ a ↔ b.rank ≤ a.rank := Iff.rfl
  cases r <;>
    simp only [Relates, holds, beq_iff_eq, bne_iff_ne, ne_eq, Int.compare_eq_lt, Int.compare_eq_gt,
      Int.compare_eq_eq, Instant.rank_inj, hlt, hgt, hle, hge, not_lt]

instance (r : Relation) (a b : Instant) : Decidable (r.Relates a b) :=
  decidable_of_iff _ (r.relates_iff a b).symm

/-- Whether a relation that asks for an order holds depends on which of two values is less. -/
theorem holds_gt_iff_holds_lt_iff (r : Relation) :
    (r.holds .gt = true ↔ r.holds .lt = true) ↔ r.isOrdering = false := by
  cases r <;> decide

/-- The texts that rows hold of instants stand in a relation as the instants do, to the microsecond;
but an order is never that of the instants if the second of them is later than the year 9999. -/
theorem holds_storageText_iff (r : Relation) {a b : Instant}
    (ha : 0 ≤ a.date.year ∧ a.date.year ≤ 9999) :
    (r.holds (compareOfLessAndEq a.toStorageText b.toStorageText) = true ↔
        r.Relates a.truncateMicros b.truncateMicros) ↔
      (r.isOrdering = true → b.date.year ≤ 9999) := by
  rw [relates_iff]
  by_cases hb : b.date.year ≤ 9999
  · simp [Instant.order_of_early ha hb, hb]
  · obtain ⟨htext, hrank⟩ := Instant.order_of_late ha (not_le.mp hb)
    rw [htext, hrank, holds_gt_iff_holds_lt_iff]
    simp [hb]

end Filter.Relation
end StatusBoard

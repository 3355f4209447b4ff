import StatusBoard.Json.Value
import StatusBoard.Proofs.Number.Shortest
set_option autoImplicit false

/-!
# Json: numerals that are written

Whatever number is written, its text is one numeral of the grammar: a whole number has digits only,
any other number has a point or an exponent.  The numeral of a finite number is read as a finite
number again.
-/

namespace StatusBoard.Json

/-! ## What follows a value -/

/-- What follows a value in a text: nothing, or a mark between or behind values. -/
def Closes (rest : List Char) : Prop :=
  ∀ c ∈ rest.head?, c = ',' ∨ c = ']' ∨ c = '\x7d'

theorem closes_nil : Closes [] := by
  intro c hc
  cases hc

theorem closes_cons {c : Char} (h : c = ',' ∨ c = ']' ∨ c = '\x7d') (rest : List Char) :
    Closes (c :: rest) := by
  intro d hd
  have hcd : c = d := by simpa using hd
  rwa [← hcd]

theorem Closes.ne {rest : List Char} (h : Closes rest) {c d : Char} (hc : c ∈ rest.head?)
    (hd : d ≠ ',' ∧ d ≠ ']' ∧ d ≠ '\x7d') : c ≠ d := by
  intro heq
  have hclose := h c hc
  rw [heq] at hclose
  rcases hclose with hcomma | hbracket | hbrace
  · exact hd.1 hcomma
  · exact hd.2.1 hbracket
  · exact hd.2.2 hbrace

theorem Closes.endsDigits {rest : List Char} (h : Closes rest) : Text.EndsDigits rest := by
  intro c hc
  rcases h c hc with rfl | rfl | rfl <;> decide

theorem ne_of_isDigit {c d : Char} (h : isDigit c = true) (hd : isDigit d = false) : c ≠ d := by
  rintro rfl
  rw [h] at hd
  cases hd

theorem takeWhile_digits {digits rest : List Char} (h : ∀ c ∈ digits, isDigit c = true)
    (hrest : Text.EndsDigits rest) : (digits ++ rest).takeWhile isDigit = digits := by
  rw [List.takeWhile_append_of_pos h]
  cases rest with
  | nil => simp
  | cons c rest =>
      have hc : isDigit c = false := hrest c rfl
      simp [hc]

theorem dropWhile_digits {digits rest : List Char} (h : ∀ c ∈ digits, isDigit c = true)
    (hrest : Text.EndsDigits rest) : (digits ++ rest).dropWhile isDigit = rest := by
  rw [List.dropWhile_append_of_pos h]
  cases rest with
  | nil => simp
  | cons c rest =>
      have hc : isDigit c = false := hrest c rfl
      simp [hc]

/-! ## Numerals of the grammar -/

/-- An exponent as it is written: always with a sign. -/
inductive IsExponent : List Char → Prop where
  | none : IsExponent []
  | some {sign : Char} {digits : List Char} (hsign : sign = '+' ∨ sign = '-')
      (hne : digits ≠ []) (hdigits : ∀ c ∈ digits, isDigit c = true) :
      IsExponent ('e' :: sign :: digits)

/-- A numeral of the grammar. -/
structure Numeral.IsWritten (n : Numeral) : Prop where
  ne_nil : n.whole ≠ []
  whole : ∀ c ∈ n.whole, isDigit c = true
  /-- No zero stands in front of other digits. -/
  leading : n.whole.head? = some '0' → n.whole.length ≤ 1
  fraction : ∀ c ∈ n.fraction, isDigit c = true
  exponent : IsExponent n.exponent

namespace Numeral

/-- What is written behind the whole digits. -/
def tail (n : Numeral) : List Char :=
  (if n.fraction.isEmpty then [] else '.' :: n.fraction) ++ n.exponent

theorem toChars_eq (n : Numeral) :
    n.toChars = (if n.negative then ['-'] else []) ++ (n.whole ++ n.tail) := by
  simp only [toChars, tail, List.append_assoc]

variable {n : Numeral} {rest : List Char}

theorem readExponent_exponent (h : n.IsWritten) (hrest : Closes rest) :
    readExponent (n.exponent ++ rest) = some (n.exponent, rest) := by
  have hexponent := h.exponent
  generalize n.exponent = exponent at hexponent
  cases hexponent with
  | none =>
      cases rest with
      | nil => rfl
      | cons c rest =>
          have hlow : c ≠ 'e' := hrest.ne (c := c) rfl (by decide)
          have hhigh : c ≠ 'E' := hrest.ne (c := c) rfl (by decide)
          cases rest <;> simp [readExponent, hlow, hhigh]
  | @some sign digits hsign hne hdigits =>
      have hempty : digits.isEmpty = false := by simpa using hne
      simp [readExponent, readExponentDigits, hsign, hempty,
        takeWhile_digits hdigits hrest.endsDigits, dropWhile_digits hdigits hrest.endsDigits]

/-- Behind the digits of a numeral comes no further digit, and no point. -/
theorem head_exponent (h : n.IsWritten) (hrest : Closes rest) {c : Char}
    (hc : c ∈ (n.exponent ++ rest).head?) : isDigit c = false ∧ c ≠ '.' := by
  have hexponent := h.exponent
  generalize n.exponent = exponent at hexponent hc
  cases hexponent with
  | none => exact ⟨hrest.endsDigits c hc, hrest.ne hc (by decide)⟩
  | some hsign hne hdigits =>
      cases hc
      decide

theorem readFraction_tail (h : n.IsWritten) (hrest : Closes rest) :
    readFraction (n.tail ++ rest) = some (n.fraction, n.exponent ++ rest) := by
  have hends : Text.EndsDigits (n.exponent ++ rest) := fun c hc => (head_exponent h hrest hc).1
  rw [tail]
  cases hfraction : n.fraction with
  | nil =>
      simp only [List.isEmpty_nil, if_true, List.nil_append]
      unfold readFraction
      split
      · rename_i heq
        exact absurd rfl (head_exponent h hrest (by rw [heq]; rfl)).2
      · rfl
  | cons d digits =>
      have hdigits : ∀ c ∈ d :: digits, isDigit c = true := hfraction ▸ h.fraction
      have htake := takeWhile_digits hdigits hends
      have hdrop := dropWhile_digits hdigits hends
      simp only [List.isEmpty_cons, Bool.false_eq_true, if_false, List.cons_append,
        List.append_assoc, readFraction] at htake hdrop ⊢
      rw [htake, hdrop]
      rfl

theorem endsDigits_tail (h : n.IsWritten) (hrest : Closes rest) :
    Text.EndsDigits (n.tail ++ rest) := by
  intro c hc
  rw [tail] at hc
  cases hfraction : n.fraction with
  | nil =>
      simp only [hfraction, List.isEmpty_nil, if_true, List.nil_append] at hc
      exact (head_exponent h hrest hc).1
  | cons d digits =>
      simp only [hfraction, List.isEmpty_cons, Bool.false_eq_true, if_false, List.cons_append] at hc
      cases hc
      decide

/-- The digits before the point are followed by the rest of the numeral. -/
theorem readNumeral_unsigned (h : n.IsWritten) (hrest : Closes rest) :
    (let s := n.whole ++ (n.tail ++ rest)
     let whole := s.takeWhile isDigit
     if whole.isEmpty || (whole.head? = some '0' && 1 < whole.length) then none
     else do
       let (fraction, s) ← readFraction (s.dropWhile isDigit)
       let (exponent, s) ← readExponent s
       some (⟨n.negative, whole, fraction, exponent⟩, s)) = some (n, rest) := by
  have hends := endsDigits_tail h hrest
  have hempty : n.whole.isEmpty = false := by simpa using h.ne_nil
  have hleading : (decide (n.whole.head? = some '0') && decide (1 < n.whole.length)) = false := by
    simp only [Bool.and_eq_false_iff, decide_eq_false_iff_not, not_lt]
    by_cases hzero : n.whole.head? = some '0'
    · exact .inr (h.leading hzero)
    · exact .inl hzero
  simp only [takeWhile_digits h.whole hends, dropWhile_digits h.whole hends, hempty, hleading,
    Bool.or_false, Bool.false_eq_true, if_false, readFraction_tail h hrest,
    readExponent_exponent h hrest, Option.bind_eq_bind, Option.bind_some]

/-- A numeral of the grammar is read as it was written, and no further. -/
theorem readNumeral_toChars (h : n.IsWritten) (hrest : Closes rest) :
    readNumeral (n.toChars ++ rest) = some (n, rest) := by
  have hread := readNumeral_unsigned h hrest
  rw [toChars_eq]
  cases hsign : n.negative with
  | true =>
      rw [hsign] at hread
      simp only [if_true, List.cons_append, List.nil_append, List.append_assoc]
      exact hread
  | false =>
      obtain ⟨d, ds, hwhole⟩ := List.exists_cons_of_ne_nil h.ne_nil
      have hd : d ≠ '-' := by
        apply ne_of_isDigit (h.whole d (by rw [hwhole]; exact List.mem_cons_self))
        decide
      rw [hsign] at hread
      simp only [Bool.false_eq_true, if_false, List.nil_append, List.append_assoc]
      unfold readNumeral
      split
      rename_i negative s heq
      have hplain : (negative, s) = (false, n.whole ++ (n.tail ++ rest)) := by
        rw [← heq]
        split
        · rename_i t ht
          rw [hwhole] at ht
          exact absurd (List.cons.inj ht).1 hd
        · rfl
      cases hplain
      exact hread

/-- A numeral starts with a digit or a minus sign. -/
theorem IsWritten.head (h : n.IsWritten) :
    ∃ c s, n.toChars = c :: s ∧ (c = '-' ∨ isDigit c = true) := by
  obtain ⟨d, ds, hwhole⟩ := List.exists_cons_of_ne_nil h.ne_nil
  rw [toChars_eq, hwhole]
  cases n.negative with
  | true => exact ⟨'-', _, rfl, .inl rfl⟩
  | false => exact ⟨d, _, rfl, .inr (h.whole d (by rw [hwhole]; exact List.mem_cons_self))⟩

end Numeral

/-! ## Whole numbers -/

/-- The numeral of a whole number. -/
def numeralOf (i : Int) : Numeral where
  negative := decide (i < 0)
  whole := Nat.toDigits 10 i.natAbs
  fraction := []
  exponent := []

theorem toChars_numeralOf (i : Int) : (numeralOf i).toChars = Text.ofInt i := by
  unfold Text.ofInt
  by_cases h : i < 0 <;> simp [Numeral.toChars, numeralOf, h]

/-- A whole number has no zero in front. -/
theorem no_leading_zero (n : Nat) :
    (decide ((Nat.toDigits 10 n).head? = some '0') && decide (1 < (Nat.toDigits 10 n).length)) =
      false := by
  cases n with
  | zero => decide
  | succ n =>
      have hhead : (Nat.toDigits 10 (n + 1)).head? ≠ some '0' :=
        Text.head?_toDigits_ne_zero (Nat.succ_pos n)
      simp [hhead]

theorem isWritten_numeralOf (i : Int) : (numeralOf i).IsWritten where
  ne_nil := Nat.toDigits_ne_nil
  whole := fun _ hc => Text.isDigit_of_mem_toDigits hc
  leading := by
    have hzero := no_leading_zero i.natAbs
    simp only [Bool.and_eq_false_iff, decide_eq_false_iff_not, not_lt] at hzero
    intro hhead
    exact hzero.resolve_left (not_not.mpr hhead)
  fraction := by simp [numeralOf]
  exponent := .none

/-! ## Binary numbers -/

open Binary64 (exponentText layout)

/-- The forms of a number with a sign, digits and a power of ten, by the place of its point. -/
inductive IsForm (negative : Bool) (digits : List Char) (power : Int) : Numeral → Prop where
  | whole (hpower : 0 ≤ power) (hplace : digits.length + power ≤ 16) :
      IsForm negative digits power
        ⟨negative, digits ++ List.replicate power.toNat '0', ['0'], []⟩
  | fraction {place : Nat} (hplace : (place : Int) = digits.length + power) (hlow : 0 < place)
      (hhigh : place ≤ 16) (hpower : power < 0) :
      IsForm negative digits power ⟨negative, digits.take place, digits.drop place, []⟩
  | small (zeros : Nat) :
      IsForm negative digits power ⟨negative, ['0'], List.replicate zeros '0' ++ digits, []⟩
  | exponent (hplace : digits.length + power ≤ -5 ∨ 16 < digits.length + power) :
      IsForm negative digits power ⟨negative, digits.take 1, digits.drop 1,
        'e' :: exponentText (digits.length + power - 1)⟩

/-- The numeral of a number with a sign, digits and a power of ten. -/
def numeralOfDigits (negative : Bool) (digits : List Char) (power : Int) : Numeral :=
  let place : Int := digits.length + power
  if 0 ≤ power && place ≤ 16 then
    ⟨negative, digits ++ List.replicate power.toNat '0', ['0'], []⟩
  else if 0 < place && place ≤ 16 then
    ⟨negative, digits.take place.toNat, digits.drop place.toNat, []⟩
  else if -5 < place && place ≤ 0 then
    ⟨negative, ['0'], List.replicate (-place).toNat '0' ++ digits, []⟩
  else ⟨negative, digits.take 1, digits.drop 1, 'e' :: exponentText (place - 1)⟩

theorem isForm_numeralOfDigits (negative : Bool) (digits : List Char) (power : Int) :
    IsForm negative digits power (numeralOfDigits negative digits power) := by
  unfold numeralOfDigits
  simp only [Bool.and_eq_true, decide_eq_true_eq]
  split
  · rename_i h
    exact .whole h.1 h.2
  · split
    · exact .fraction (by omega) (by omega) (by omega) (by omega)
    · split
      · exact .small _
      · exact .exponent (by omega)

/-- Digits are laid out as their numeral. -/
theorem toChars_numeralOfDigits (negative : Bool) {digits : List Char} (h : digits ≠ [])
    (power : Int) :
    (numeralOfDigits negative digits power).toChars =
      (if negative then ['-'] else []) ++ layout digits power := by
  unfold numeralOfDigits layout
  simp only [Bool.and_eq_true, decide_eq_true_eq]
  split
  · simp [Numeral.toChars]
  · split
    · have hrest : (digits.drop (digits.length + power).toNat).isEmpty = false := by
        rw [List.isEmpty_eq_false_iff, ne_eq, List.drop_eq_nil_iff]
        omega
      simp [Numeral.toChars, hrest]
    · split
      · simp [Numeral.toChars, h]
      · match digits with
        | [] => exact absurd rfl h
        | [d] => simp [Numeral.toChars]
        | d :: e :: rest => simp [Numeral.toChars]

/-- The numeral of a binary number. -/
def numeralOfBinary (x : Binary64) : Numeral :=
  if x.mantissa = 0 then ⟨x.negative, ['0'], ['0'], []⟩
  else numeralOfDigits x.negative x.significant.1 x.significant.2

theorem toChars_numeralOfBinary (x : Binary64) : (numeralOfBinary x).toChars = x.toText := by
  unfold numeralOfBinary
  split
  · rename_i hzero
    simp [Numeral.toChars, Binary64.toText, hzero]
  · rename_i hmantissa
    have hpos : 0 < x.mantissa := Nat.pos_of_ne_zero hmantissa
    rw [Binary64.toText_eq hpos]
    exact toChars_numeralOfDigits x.negative (Binary64.isKept_significant hpos).ne_nil _

theorem isExponent_exponentText (e : Int) : IsExponent ('e' :: exponentText e) := by
  refine .some ?_ Nat.toDigits_ne_nil fun _ hc => Text.isDigit_of_mem_toDigits hc
  by_cases h : e < 0 <;> simp [h]

theorem isDigit_of_mem_zeros (k : Nat) : ∀ c ∈ List.replicate k '0', isDigit c = true := by
  intro c hc
  rw [List.eq_of_mem_replicate hc]
  decide

/-- A form of digits without zeros in front is a numeral of the grammar. -/
theorem IsForm.isWritten {negative : Bool} {digits : List Char} {power : Int} {n : Numeral}
    (h : IsForm negative digits power n) (hne : digits ≠ [])
    (hdigits : ∀ c ∈ digits, isDigit c = true) (hhead : digits.head? ≠ some '0') :
    n.IsWritten := by
  have htake : ∀ k, 0 < k → (digits.take k).head? ≠ some '0' := by
    intro k hk
    rw [List.head?_take, if_neg hk.ne']
    exact hhead
  cases h with
  | whole hpower hplace =>
      refine ⟨by simp [hne], ?_, ?_, isDigit_of_mem_zeros 1, .none⟩
      · intro c hc
        rcases List.mem_append.mp hc with hc | hc
        · exact hdigits c hc
        · exact isDigit_of_mem_zeros _ c hc
      · rw [List.head?_append_of_ne_nil _ hne]
        exact fun hzero => absurd hzero hhead
  | @fraction place hplace hlow hhigh hpower =>
      refine ⟨by simp [hne, hlow.ne'], ?_, ?_, ?_, .none⟩
      · exact fun c hc => hdigits c (List.mem_of_mem_take hc)
      · exact fun hzero => absurd hzero (htake place hlow)
      · exact fun c hc => hdigits c (List.mem_of_mem_drop hc)
  | small zeros =>
      refine ⟨by simp, isDigit_of_mem_zeros 1, by simp, ?_, .none⟩
      intro c hc
      rcases List.mem_append.mp hc with hc | hc
      · exact isDigit_of_mem_zeros _ c hc
      · exact hdigits c hc
  | exponent hplace =>
      refine ⟨by simp [hne], ?_, ?_, ?_, isExponent_exponentText _⟩
      · exact fun c hc => hdigits c (List.mem_of_mem_take hc)
      · exact fun hzero => absurd hzero (htake 1 Nat.one_pos)
      · exact fun c hc => hdigits c (List.mem_of_mem_drop hc)

theorem isWritten_numeralOfBinary (x : Binary64) : (numeralOfBinary x).IsWritten := by
  unfold numeralOfBinary
  split
  · exact ⟨by simp, isDigit_of_mem_zeros 1, by simp, isDigit_of_mem_zeros 1, .none⟩
  · rename_i hmantissa
    have hpos : 0 < x.mantissa := Nat.pos_of_ne_zero hmantissa
    have hkept := Binary64.isKept_significant hpos
    exact (isForm_numeralOfDigits _ _ _).isWritten hkept.ne_nil hkept.isDigit
      (hkept.head_ne (Binary64.shortest_pos hpos _))

/-! ## Reading binary numbers -/

/-- The digits of a numeral one after the other. -/
def takeIn (significand : Nat) (digits : List Char) : Nat :=
  digits.foldl (fun n c => 10 * n + Text.digitValue c) significand

theorem le_takeIn (significand : Nat) (digits : List Char) :
    significand ≤ takeIn significand digits := by
  induction digits generalizing significand with
  | nil => exact le_rfl
  | cons c digits ih => exact le_trans (by omega) (ih (10 * significand + Text.digitValue c))

/-- Digits for which there is room are all taken in. -/
theorem takeWhole_eq {significand : Nat} {digits : List Char}
    (h : takeIn significand digits < significandBound) :
    takeWhole significand digits = (takeIn significand digits, 0) := by
  induction digits generalizing significand with
  | nil => rfl
  | cons c digits ih =>
      have hnext : 10 * significand + Text.digitValue c < significandBound :=
        (le_takeIn _ digits).trans_lt h
      rw [takeWhole, if_pos hnext]
      exact ih h

theorem takeFraction_eq {significand : Nat} {digits : List Char}
    (h : takeIn significand digits < significandBound) :
    takeFraction significand digits = (takeIn significand digits, digits.length) := by
  induction digits generalizing significand with
  | nil => rfl
  | cons c digits ih =>
      have hnext : 10 * significand + Text.digitValue c < significandBound :=
        (le_takeIn _ digits).trans_lt h
      have hrest : takeFraction (10 * significand + Text.digitValue c) digits = _ := ih h
      simp only [takeFraction, if_pos hnext, hrest]
      rfl

/-- There is room for whatever is taken in. -/
theorem takeFraction_lt {significand : Nat} (h : significand < significandBound)
    (digits : List Char) : (takeFraction significand digits).1 < significandBound := by
  induction digits generalizing significand with
  | nil => exact h
  | cons c digits ih =>
      by_cases hnext : 10 * significand + Text.digitValue c < significandBound
      · simp only [takeFraction, if_pos hnext]
        exact ih hnext
      · simp only [takeFraction, if_neg hnext]
        exact h

theorem digitValue_lt {c : Char} (h : isDigit c = true) : Text.digitValue c < 10 := by
  simp only [isDigit, Bool.and_eq_true, decide_eq_true_eq] at h
  have hhigh : c.toNat ≤ '9'.toNat := h.2
  have hnine : '9'.toNat = 57 := rfl
  have hzero : '0'.toNat = 48 := rfl
  unfold Text.digitValue
  omega

theorem takeIn_lt {significand : Nat} {digits : List Char} (h : ∀ c ∈ digits, isDigit c = true) :
    takeIn significand digits < (significand + 1) * 10 ^ digits.length := by
  induction digits generalizing significand with
  | nil => simp [takeIn]
  | cons c digits ih =>
      have hvalue := digitValue_lt (h c List.mem_cons_self)
      have hrest : takeIn (10 * significand + Text.digitValue c) digits < _ :=
        ih fun d hd => h d (List.mem_cons_of_mem _ hd)
      refine hrest.trans_le ?_
      rw [List.length_cons, Nat.pow_succ, Nat.mul_comm _ 10, ← Nat.mul_assoc]
      exact Nat.mul_le_mul_right _ (by omega)

/-- A numeral with few digits before its point and no exponent is only scaled down. -/
theorem exists_toBinary?_of_point {n : Numeral} (hdigits : ∀ c ∈ n.whole, isDigit c = true)
    (hlength : n.whole.length ≤ 16) (hexponent : n.exponent = []) :
    ∃ y, n.toBinary? = some y := by
  have hbound : takeIn 0 n.whole < significandBound := by
    calc takeIn 0 n.whole < (0 + 1) * 10 ^ n.whole.length := takeIn_lt hdigits
      _ ≤ (0 + 1) * 10 ^ 16 := by gcongr; decide
      _ ≤ significandBound := by decide
  simp only [Numeral.toBinary?, takeWhole_eq hbound, hexponent]
  apply Binary64.exists_ofDecimal?
  refine .scaledDown (takeFraction_lt hbound n.fraction) ?_
  simp only [exponentOf]
  omega

theorem exponentOf_exponentText (e : Int) : exponentOf ('e' :: exponentText e) = e := by
  unfold exponentText
  by_cases h : e < 0
  · rw [if_pos h, exponentOf, Text.numberOf_toDigits]
    omega
  · rw [if_neg h, exponentOf, Text.numberOf_toDigits]
    omega

/-- A numeral with one digit before its point takes in all of them, and the power of ten is the one
that they had. -/
theorem toBinary?_of_exponent (negative : Bool) {digits : List Char} {power : Int}
    (hne : digits ≠ []) (hbound : Text.numberOf digits < significandBound) :
    Numeral.toBinary? ⟨negative, digits.take 1, digits.drop 1,
      'e' :: exponentText (digits.length + power - 1)⟩ =
      Binary64.ofDecimal? negative (Text.numberOf digits) power := by
  obtain ⟨d, rest, rfl⟩ := List.exists_cons_of_ne_nil hne
  have hall : takeIn (takeIn 0 [d]) rest = Text.numberOf (d :: rest) := rfl
  have hfirst : takeIn 0 [d] < significandBound :=
    (le_takeIn _ rest).trans_lt (hall ▸ hbound)
  have hpower : (0 : Nat) - (rest.length : Int) + ((rest.length + 1 : Nat) + power - 1) = power := by
    push_cast
    ring
  simp only [Numeral.toBinary?, List.take_succ_cons, List.take_zero, List.drop_succ_cons,
    List.drop_zero, takeWhole_eq hfirst, takeFraction_eq (hall ▸ hbound), hall,
    exponentOf_exponentText, List.length_cons, hpower]

/-- The numeral of a finite number is read as a finite number. -/
theorem exists_toBinary? {x : Binary64} (hfinite : x.IsFinite) :
    ∃ y, (numeralOfBinary x).toBinary? = some y := by
  unfold numeralOfBinary
  split
  · exact exists_toBinary?_of_point (isDigit_of_mem_zeros 1) (by simp) rfl
  · rename_i hmantissa
    have hpos : 0 < x.mantissa := Nat.pos_of_ne_zero hmantissa
    have hkept := Binary64.isKept_significant hpos
    have hform := isForm_numeralOfDigits x.negative x.significant.1 x.significant.2
    have hwritten := hform.isWritten hkept.ne_nil hkept.isDigit
      (hkept.head_ne (Binary64.shortest_pos hpos _))
    generalize numeralOfDigits x.negative x.significant.1 x.significant.2 = n at hform hwritten
    cases hform with
    | whole hpower hplace =>
        refine exists_toBinary?_of_point hwritten.whole ?_ rfl
        simp only [List.length_append, List.length_replicate]
        omega
    | fraction hplace hlow hhigh hpower =>
        refine exists_toBinary?_of_point hwritten.whole ?_ rfl
        simp only [List.length_take]
        omega
    | small zeros => exact exists_toBinary?_of_point hwritten.whole (by simp) rfl
    | exponent hplace =>
        have hbound := Binary64.numberOf_significant_lt hfinite hpos
        rw [toBinary?_of_exponent _ hkept.ne_nil hbound]
        apply Binary64.exists_ofDecimal?
        rcases le_or_gt x.significant.2 0 with hpower | hpower
        · exact .scaledDown hbound hpower
        · have hlarge : 16 < x.place := by
            unfold Binary64.place
            omega
          exact Binary64.isReadable_significant hfinite hpos hlarge hpower.le

end StatusBoard.Json

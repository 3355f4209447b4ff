import StatusBoard.Number.Shortest
import StatusBoard.Proofs.Number.Decimal
import StatusBoard.Proofs.Text.Digits
set_option autoImplicit false

/-!
# Number: the digits that are written

The shortest decimal of a number has seventeen digits at most and lies no further above it than half
a unit of its last place.  That is enough for the text to be read again: no more is needed here than
that what is read is finite, and only the last finite number is so near the end of the range that it
has to be looked at by itself.
-/

namespace StatusBoard.Binary64

/-! ## The number of digits -/

theorem lt_pow_length (n : Nat) : n < 10 ^ (Nat.toDigits 10 n).length :=
  (Nat.length_toDigits_le_iff (by decide) Nat.length_toDigits_pos).mp le_rfl

theorem pow_length_le {n : Nat} (h : 0 < n) : 10 ^ ((Nat.toDigits 10 n).length - 1) ≤ n := by
  by_contra hlt
  rcases Nat.eq_zero_or_pos ((Nat.toDigits 10 n).length - 1) with hone | hmore
  · rw [hone] at hlt
    omega
  · have hshort := (Nat.length_toDigits_le_iff (by decide) hmore).mpr (not_le.mp hlt)
    omega

/-- A ratio has no more digits before the point than its place says. -/
theorem lt_pow_decimalPlace {n d : Nat} (hn : 0 < n) (hd : 0 < d) :
    (n : ℚ) / d < 10 ^ decimalPlace n d := by
  have hdpos : (0 : ℚ) < d := by exact_mod_cast hd
  unfold decimalPlace
  split
  · rw [div_lt_iff₀ hdpos, zpow_natCast]
    have hdigits := lt_pow_length (n / d)
    rw [Nat.div_lt_iff_lt_mul hd] at hdigits
    exact_mod_cast hdigits
  · rename_i hbelow
    have hquotient : 0 < d / n := Nat.div_pos (by omega) hn
    generalize hlength : (Nat.toDigits 10 (d / n)).length = length
    have hpos : 0 < length := hlength ▸ Nat.length_toDigits_pos
    -- The ratio is at most the power of ten that the digits of its inverse leave.
    have hpower : (10 : ℚ) ^ (1 - (length : Int)) * 10 ^ (length - 1) = 1 := by
      rw [← zpow_natCast, ← zpow_add₀ (by norm_num), Nat.cast_sub hpos]
      simp
    dsimp only
    split
    · have hle := pow_length_le hquotient
      rw [hlength, Nat.le_div_iff_mul_le hn] at hle
      have hbound : (n : ℚ) ≤ 10 ^ (1 - (length : Int)) * d := by
        calc (n : ℚ) = 10 ^ (1 - (length : Int)) * (10 ^ (length - 1) * n) := by
              rw [← mul_assoc, hpower, one_mul]
          _ ≤ 10 ^ (1 - (length : Int)) * d := by
              gcongr
              exact_mod_cast hle
      rw [div_lt_iff₀ hdpos]
      refine hbound.trans_lt ?_
      gcongr
      · norm_num
      · omega
    · rename_i hmore
      rw [div_lt_iff₀ hdpos]
      calc (n : ℚ) = 10 ^ (1 - (length : Int)) * (n * 10 ^ (length - 1)) := by
            rw [mul_left_comm, hpower, mul_one]
        _ < 10 ^ (1 - (length : Int)) * d := by
            gcongr
            exact_mod_cast not_le.mp hmore

/-! ## Units -/

/-- The factors by which quarters of the last place and units of a power of ten are
measured alike. -/
def unitsOf (power : Int) (denominator : Nat) : Nat × Nat :=
  if 0 ≤ power then (1, denominator * Nat.pow 10 power.toNat)
  else (Nat.pow 10 (-power).toNat, denominator)

theorem unitsOf_eq (power : Int) (d : Nat) :
    unitsOf power d = (10 ^ (-power).toNat, d * 10 ^ power.toNat) := by
  unfold unitsOf
  by_cases h : 0 ≤ power
  · have hneg : (-power).toNat = 0 := by omega
    rw [if_pos h, hneg, Nat.pow_zero]
    rfl
  · have hpos : power.toNat = 0 := by omega
    rw [if_neg h, hpos, Nat.pow_zero, Nat.mul_one]
    rfl

theorem div_unitsOf (power : Int) (d : Nat) :
    ((unitsOf power d).2 : ℚ) / (unitsOf power d).1 = d * 10 ^ power := by
  rw [unitsOf_eq, zpow_eq_div]
  push_cast
  ring

/-! ## The nearest decimal of some digits -/

/-- A decimal has seventeen digits at most, and is at most half a unit of the last place above a
magnitude. -/
structure IsNear (mantissa : Nat) (exponent : Int) (number : Nat) (power : Int) : Prop where
  pos : 0 < number
  digits : number ≤ 10 ^ 17
  le : (number : ℚ) * 10 ^ power ≤ (4 * mantissa + 2) * 2 ^ (exponent - 2)

/-- The number of units lies inside the neighbourhood, whose ends belong to it if the mantissa
is even. -/
def isInside (mantissa low high scale number : Nat) : Bool :=
  if mantissa % 2 = 0 then low ≤ number * scale && number * scale ≤ high
  else low < number * scale && number * scale < high

/-- Of two neighbouring numbers the one that lies inside; if both do, the nearer. -/
def nearer? (inside : Nat → Bool) (isNearer : Bool) (lower : Nat) (power : Int) :
    Option (Nat × Int) :=
  match inside lower, inside (lower + 1) with
  | true, true => if isNearer then some (lower, power) else some (lower + 1, power)
  | true, false => some (lower, power)
  | false, true => some (lower + 1, power)
  | false, false => none

/-- A number of digits is looked at through the units that they leave: where the magnitude lies
among them, and what lies inside its neighbourhood. -/
theorem decimalWith?_eq (mantissa : Nat) (exponent : Int) (count : Nat) :
    ∃ isNearer,
      let unit := shiftRatio 1 1 (2 - exponent)
      let power := decimalPlace (4 * mantissa * unit.1) unit.2 - count
      let scale := unitsOf power unit.2
      let ends := neighbourhood mantissa exponent
      decimalWith? mantissa exponent count =
        nearer? (isInside mantissa (ends.1 * unit.1 * scale.1) (ends.2 * unit.1 * scale.1) scale.2)
          isNearer (4 * mantissa * unit.1 * scale.1 / scale.2) power :=
  ⟨_, rfl⟩

theorem le_of_isInside {mantissa low high scale number : Nat}
    (h : isInside mantissa low high scale number = true) :
    low ≤ number * scale ∧ number * scale ≤ high := by
  unfold isInside at h
  split at h
  · simpa using h
  · simp only [Bool.and_eq_true, decide_eq_true_eq] at h
    exact ⟨h.1.le, h.2.le⟩

theorem of_nearer? {inside : Nat → Bool} {isNearer : Bool} {lower number : Nat}
    {power power' : Int} (h : nearer? inside isNearer lower power = some (number, power')) :
    inside number = true ∧ number ≤ lower + 1 ∧ power' = power := by
  unfold nearer? at h
  split at h
  · rename_i hlower hupper
    split at h
    · cases h
      exact ⟨hlower, Nat.le_succ _, rfl⟩
    · cases h
      exact ⟨hupper, le_rfl, rfl⟩
  · rename_i hlower hupper
    cases h
    exact ⟨hlower, Nat.le_succ _, rfl⟩
  · rename_i hlower hupper
    cases h
    exact ⟨hupper, le_rfl, rfl⟩
  · cases h

/-- Quarters of a last place. -/
theorem div_quarters (exponent : Int) :
    ((shiftRatio 1 1 (2 - exponent)).1 : ℚ) / (shiftRatio 1 1 (2 - exponent)).2 =
      2 ^ (exponent - 2) := by
  rw [div_shiftRatio, Nat.cast_one, div_one, one_div, ← zpow_neg, neg_sub]

theorem quarters_pos (exponent : Int) : 0 < (shiftRatio 1 1 (2 - exponent)).1 := by
  rw [shiftRatio_eq]
  positivity

theorem unitsOf_pos (power : Int) {d : Nat} (hd : 0 < d) :
    0 < (unitsOf power d).1 ∧ 0 < (unitsOf power d).2 := by
  rw [unitsOf_eq]
  exact ⟨by positivity, by positivity⟩

theorem neighbourhood_bounds {mantissa : Nat} (h : 0 < mantissa) (exponent : Int) :
    0 < (neighbourhood mantissa exponent).1 ∧
      (neighbourhood mantissa exponent).2 = 4 * mantissa + 2 := by
  unfold neighbourhood
  dsimp only
  split <;> omega

theorem isNear_of_decimalWith? {mantissa count number : Nat} {exponent power : Int}
    (hmantissa : 0 < mantissa) (hcount : count ≤ 17)
    (h : decimalWith? mantissa exponent count = some (number, power)) :
    IsNear mantissa exponent number power := by
  obtain ⟨isNearer, heq⟩ := decimalWith?_eq mantissa exponent count
  dsimp only at heq
  rw [heq] at h
  obtain ⟨hinside, hnumber, hpower⟩ := of_nearer? h
  rw [← hpower] at hinside hnumber
  obtain ⟨hlow, hhigh⟩ := le_of_isInside hinside
  have hquarters := div_quarters exponent
  have hunit := quarters_pos exponent
  have hd : 0 < (shiftRatio 1 1 (2 - exponent)).2 := shiftRatio_snd_pos Nat.one_pos _
  generalize shiftRatio 1 1 (2 - exponent) = unit at *
  obtain ⟨hup, hscale⟩ := unitsOf_pos power hd
  have hunits := div_unitsOf power unit.2
  generalize unitsOf power unit.2 = scale at *
  obtain ⟨hpos, htop⟩ := neighbourhood_bounds hmantissa exponent
  have hdq : (0 : ℚ) < unit.2 := by exact_mod_cast hd
  have hupq : (0 : ℚ) < scale.1 := by exact_mod_cast hup
  have hscaleq : (scale.2 : ℚ) = unit.2 * 10 ^ power * scale.1 := (div_eq_iff hupq.ne').mp hunits
  have hunitq : (unit.1 : ℚ) = 2 ^ (exponent - 2) * unit.2 := (div_eq_iff hdq.ne').mp hquarters
  refine ⟨?_, ?_, ?_⟩
  · apply Nat.pos_of_ne_zero
    rintro rfl
    rw [Nat.zero_mul] at hlow
    exact absurd (Nat.mul_pos (Nat.mul_pos hpos hunit) hup) (by omega)
  · have hvalue : 0 < 4 * mantissa * unit.1 :=
      Nat.mul_pos (Nat.mul_pos (by decide) hmantissa) hunit
    have hplace := lt_pow_decimalPlace hvalue hd
    have hpowers : (10 : ℚ) ^ decimalPlace (4 * mantissa * unit.1) unit.2 =
        10 ^ count * 10 ^ power := by
      rw [hpower, ← zpow_natCast, ← zpow_add₀ (by norm_num)]
      congr 1
      ring
    rw [hpowers, div_lt_iff₀ hdq] at hplace
    have hlower : 4 * mantissa * unit.1 * scale.1 / scale.2 < 10 ^ count := by
      rw [Nat.div_lt_iff_lt_mul hscale]
      have hscaled : ((4 * mantissa * unit.1 : Nat) : ℚ) * scale.1 < 10 ^ count * scale.2 := by
        calc ((4 * mantissa * unit.1 : Nat) : ℚ) * scale.1
            < 10 ^ count * 10 ^ power * unit.2 * scale.1 := by gcongr
          _ = 10 ^ count * scale.2 := by
              rw [hscaleq]
              ring
      exact_mod_cast hscaled
    calc number ≤ _ := hnumber
      _ ≤ 10 ^ count := hlower
      _ ≤ 10 ^ 17 := Nat.pow_le_pow_right (by decide) hcount
  · rw [htop] at hhigh
    have hcast : (number : ℚ) * scale.2 ≤ (4 * mantissa + 2) * unit.1 * scale.1 := by
      exact_mod_cast hhigh
    rw [hscaleq, hunitq] at hcast
    have hpositive : (0 : ℚ) < unit.2 * scale.1 := by positivity
    refine le_of_mul_le_mul_right ?_ hpositive
    calc (number : ℚ) * 10 ^ power * (unit.2 * scale.1)
        = number * (unit.2 * 10 ^ power * scale.1) := by ring
      _ ≤ (4 * mantissa + 2) * (2 ^ (exponent - 2) * unit.2) * scale.1 := hcast
      _ = (4 * mantissa + 2) * 2 ^ (exponent - 2) * (unit.2 * scale.1) := by ring

/-- The shortest decimal is near the magnitude, or else it is the mantissa. -/
theorem shortest_cases {mantissa : Nat} (h : 0 < mantissa) (exponent : Int) :
    IsNear mantissa exponent (shortest mantissa exponent).1 (shortest mantissa exponent).2 ∨
      shortest mantissa exponent = (mantissa, 0) := by
  unfold shortest
  cases hfind : (List.range 17).findSome? fun i => decimalWith? mantissa exponent (i + 1) with
  | none => exact .inr rfl
  | some decimal =>
      obtain ⟨i, hi, hdecimal⟩ := List.exists_of_findSome?_eq_some hfind
      exact .inl (isNear_of_decimalWith? h (List.mem_range.mp hi) hdecimal)

/-- What is near a finite magnitude other than the last does not go beyond the last but one. -/
theorem IsNear.le_almostBeyond {mantissa number : Nat} {exponent power : Int}
    (h : IsNear mantissa exponent number power) (hfinite : IsMagnitude (mantissa, exponent))
    (hlast : ¬ (mantissa = 2 ^ 53 - 1 ∧ exponent = 971)) :
    (number : ℚ) * 10 ^ power ≤ almostBeyond := by
  have hmantissa : mantissa < 2 ^ 53 := hfinite.mantissa
  have hexponent : exponent ≤ 971 := hfinite.exponent
  refine h.le.trans ?_
  rw [almostBeyond_eq]
  rcases hexponent.lt_or_eq with hlt | rfl
  · have hdigits : (mantissa : ℚ) ≤ 2 ^ 53 - 1 := by
      have hle : ((mantissa + 1 : Nat) : ℚ) ≤ ((2 ^ 53 : Nat) : ℚ) := by exact_mod_cast hmantissa
      push_cast at hle
      linarith
    have hunit : (2 : ℚ) ^ (exponent - 2) ≤ 2 ^ (968 : Int) := two_zpow_le (by omega)
    have hunits : (2 : ℚ) ^ (970 : Int) = 4 * 2 ^ (968 : Int) := by
      rw [show (970 : Int) = 968 + 2 from rfl, zpow_add₀ (by norm_num)]
      ring
    have hpos : (0 : ℚ) < 2 ^ (968 : Int) := zpow_pos (by norm_num) _
    rw [hunits]
    generalize (2 : ℚ) ^ (968 : Int) = last at hunit hpos
    calc (4 * (mantissa : ℚ) + 2) * 2 ^ (exponent - 2)
        ≤ (4 * (2 ^ 53 - 1) + 2) * last := by gcongr
      _ ≤ (2 ^ 54 - 3) * (4 * last) := by linarith
  · have hdigits : (mantissa : ℚ) ≤ 2 ^ 53 - 2 := by
      have hle : ((mantissa + 2 : Nat) : ℚ) ≤ ((2 ^ 53 : Nat) : ℚ) := by
        norm_cast
        omega
      push_cast at hle
      linarith
    have hunits : (2 : ℚ) ^ (970 : Int) = 2 * 2 ^ (971 - 2 : Int) := by
      rw [show (970 : Int) = 971 - 2 + 1 from rfl, zpow_add_one₀ (by norm_num)]
      ring
    have hpos : (0 : ℚ) < 2 ^ (971 - 2 : Int) := zpow_pos (by norm_num) _
    rw [hunits]
    generalize (2 : ℚ) ^ (971 - 2 : Int) = last at hpos
    calc (4 * (mantissa : ℚ) + 2) * last ≤ (4 * (2 ^ 53 - 2) + 2) * last := by gcongr
      _ = (2 ^ 54 - 3) * (2 * last) := by ring

/-! ## Digits without zeros at their end -/

/-- Digits are those of a number but for zeros at the end, which the power of ten makes up for. -/
structure IsKept (number : Nat) (power : Int) (digits : List Char) (power' : Int) : Prop where
  ne_nil : digits ≠ []
  zeros : ∃ k : Nat, Nat.toDigits 10 number = digits ++ List.replicate k '0' ∧ power' = power + k

/-- Zeros at the end multiply by a power of ten. -/
theorem numberOf_append_zeros (digits : List Char) (k : Nat) :
    Text.numberOf (digits ++ List.replicate k '0') = 10 ^ k * Text.numberOf digits := by
  have happend : Text.numberOf (digits ++ List.replicate k '0') =
      Nat.ofDigitChars 10 (List.replicate k '0') (Text.numberOf digits) :=
    Nat.ofDigitChars_append 0
  rw [happend, Nat.ofDigitChars_replicate_zero]

theorem isKept_dropZeros {number : Nat} (h : 0 < number) (power : Int) :
    IsKept number power (dropZeros (Nat.toDigits 10 number) power).1
      (dropZeros (Nat.toDigits 10 number) power).2 := by
  generalize hall : Nat.toDigits 10 number = all
  let zeros := (all.reverse.takeWhile (· == '0')).reverse
  have hsplit : all = (dropZeros all power).1 ++ zeros := by
    rw [dropZeros, ← List.reverse_append, List.takeWhile_append_dropWhile, List.reverse_reverse]
  have hzeros : zeros = List.replicate zeros.length '0' := by
    rw [List.eq_replicate_iff]
    refine ⟨rfl, ?_⟩
    intro c hc
    have hall := List.all_eq_true.mp List.all_takeWhile c (List.mem_reverse.mp hc)
    simpa using hall
  refine ⟨?_, zeros.length, ?_, ?_⟩
  · intro hnil
    rw [hnil, hzeros] at hsplit
    have hnumber := Text.numberOf_toDigits number
    have hnothing : Text.numberOf [] = 0 := rfl
    rw [hall, hsplit, numberOf_append_zeros, hnothing, Nat.mul_zero] at hnumber
    exact h.ne hnumber
  · rw [hall, ← hzeros]
    exact hsplit
  · have hlength := congrArg List.length hsplit
    rw [List.length_append] at hlength
    simp only [dropZeros] at hlength ⊢
    congr 2
    omega

namespace IsKept

variable {number : Nat} {power power' : Int} {digits : List Char}

theorem isDigit (h : IsKept number power digits power') : ∀ c ∈ digits, Text.isDigit c = true := by
  obtain ⟨k, hall, -⟩ := h.zeros
  intro c hc
  apply Text.isDigit_of_mem_toDigits (n := number)
  rw [hall]
  exact List.mem_append_left _ hc

theorem head_ne (h : IsKept number power digits power') (hpos : 0 < number) :
    digits.head? ≠ some '0' := by
  obtain ⟨k, hall, -⟩ := h.zeros
  have hhead := Text.head?_toDigits_ne_zero hpos
  rw [hall, List.head?_append_of_ne_nil _ h.ne_nil] at hhead
  exact hhead

theorem numberOf_mul (h : IsKept number power digits power') :
    ∃ k : Nat, 10 ^ k * Text.numberOf digits = number ∧ power' = power + k := by
  obtain ⟨k, hall, hpower⟩ := h.zeros
  have hnumber := Text.numberOf_toDigits number
  rw [hall, numberOf_append_zeros] at hnumber
  exact ⟨k, hnumber, hpower⟩

theorem length (h : IsKept number power digits power') :
    (digits.length : Int) + power' = (Nat.toDigits 10 number).length + power := by
  obtain ⟨k, hall, hpower⟩ := h.zeros
  rw [hall, List.length_append, List.length_replicate, hpower]
  push_cast
  ring

/-- What was left out counts as much as before. -/
theorem value_eq (h : IsKept number power digits power') :
    (Text.numberOf digits : ℚ) * 10 ^ power' = number * 10 ^ power := by
  obtain ⟨k, hnumber, hpower⟩ := h.numberOf_mul
  rw [← hnumber, hpower, zpow_add₀ (by norm_num), zpow_natCast]
  push_cast
  ring

theorem numberOf_le (h : IsKept number power digits power') : Text.numberOf digits ≤ number := by
  obtain ⟨k, hnumber, -⟩ := h.numberOf_mul
  rw [← hnumber]
  exact Nat.le_mul_of_pos_left _ (by positivity)

end IsKept

/-! ## The digits of a number -/

/-- The digits that a number is written with, and their power of ten. -/
def significant (x : Binary64) : List Char × Int :=
  dropZeros (Nat.toDigits 10 (shortest x.mantissa x.exponent).1) (shortest x.mantissa x.exponent).2

/-- The number of these digits that stand before the point; zero or less counts
zeros behind it. -/
def place (x : Binary64) : Int :=
  x.significant.1.length + x.significant.2

/-- Digits with a power of ten, and the point where it belongs. -/
def layout (digits : List Char) (power : Int) : List Char :=
  let place : Int := digits.length + power
  if 0 ≤ power && place ≤ 16 then digits ++ List.replicate power.toNat '0' ++ ['.', '0']
  else if 0 < place && place ≤ 16 then
    digits.take place.toNat ++ ['.'] ++ digits.drop place.toNat
  else if -5 < place && place ≤ 0 then
    ['0', '.'] ++ List.replicate (-place).toNat '0' ++ digits
  else
    let tail := 'e' :: exponentText (place - 1)
    match digits with
    | [] => tail
    | [d] => d :: tail
    | d :: rest => d :: '.' :: rest ++ tail

/-- The text of a number is its sign and its digits. -/
theorem toText_eq {x : Binary64} (h : 0 < x.mantissa) :
    x.toText = (if x.negative then ['-'] else []) ++ layout x.significant.1 x.significant.2 := by
  rw [toText, if_neg h.ne']
  rfl

theorem shortest_pos {mantissa : Nat} (h : 0 < mantissa) (exponent : Int) :
    0 < (shortest mantissa exponent).1 := by
  obtain hnear | hself := shortest_cases h exponent
  · exact hnear.pos
  · rw [hself]
    exact h

theorem isKept_significant {x : Binary64} (h : 0 < x.mantissa) :
    IsKept (shortest x.mantissa x.exponent).1 (shortest x.mantissa x.exponent).2
      x.significant.1 x.significant.2 :=
  isKept_dropZeros (shortest_pos h x.exponent) _

/-- The digits that a finite number is written with are those of a number of 64 bits. -/
theorem numberOf_significant_lt {x : Binary64} (hfinite : x.IsFinite) (h : 0 < x.mantissa) :
    Text.numberOf x.significant.1 < 2 ^ 64 := by
  refine (isKept_significant h).numberOf_le.trans_lt ?_
  obtain hnear | hself := shortest_cases h x.exponent
  · exact hnear.digits.trans_lt (by norm_num)
  · rw [hself]
    exact lt_trans hfinite.mantissa (by norm_num)

/-- The digits of the last finite number. -/
theorem significant_last {x : Binary64} (hmantissa : x.mantissa = 2 ^ 53 - 1)
    (hexponent : x.exponent = 971) :
    Text.numberOf x.significant.1 = 17976931348623157 ∧ x.significant.2 = 292 := by
  rw [significant, hmantissa, hexponent]
  decide +kernel

/-- What needs an exponent for its size can be read. -/
theorem isReadable_significant {x : Binary64} (hfinite : x.IsFinite) (hmantissa : 0 < x.mantissa)
    (hplace : 16 < x.place) (hpower : 0 ≤ x.significant.2) :
    IsReadable (Text.numberOf x.significant.1) x.significant.2 := by
  have hkept := isKept_significant hmantissa
  by_cases hlast : x.mantissa = 2 ^ 53 - 1 ∧ x.exponent = 971
  · obtain ⟨hdigits, hten⟩ := significant_last hlast.1 hlast.2
    exact .last hdigits hten
  · obtain hnear | hself := shortest_cases hmantissa x.exponent
    · refine .scaledUp (hkept.numberOf_le.trans hnear.digits) hpower ?_
      have hvalue := hnear.le_almostBeyond hfinite hlast
      rw [← hkept.value_eq, ← Int.toNat_of_nonneg hpower, zpow_natCast] at hvalue
      exact_mod_cast hvalue
    · -- A mantissa has sixteen digits, and is not that large.
      have hdigits : (Nat.toDigits 10 x.mantissa).length ≤ 16 :=
        (Nat.length_toDigits_le_iff (by decide) (by decide)).mpr
          (lt_trans hfinite.mantissa (by decide))
      have hlength := hkept.length
      simp only [hself] at hlength
      unfold place at hplace
      omega

end StatusBoard.Binary64

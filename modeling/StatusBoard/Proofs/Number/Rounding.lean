import Mathlib.Algebra.Order.Field.Power
import Mathlib.Data.Rat.Cast.Order
import Mathlib.Tactic.FieldSimp
import Mathlib.Tactic.GCongr
import Mathlib.Tactic.Linarith
import Mathlib.Tactic.NormNum
import Mathlib.Tactic.Positivity
import Mathlib.Tactic.Ring
import StatusBoard.Number.Binary64
set_option autoImplicit false

/-!
# Number: rounding to binary64

A ratio is rounded to a multiple of its unit, the power of two that leaves room for 53 digits.  From
that follows all that is needed of rounding: it does not cross a number that is binary itself, it adds
one part in `2 ^ 53` at most, and it fails only for what is beyond all finite numbers.
-/

namespace StatusBoard.Binary64

/-! ## Ratios -/

/-- The magnitude of a mantissa and an exponent. -/
def valueOf (x : Nat × Int) : ℚ :=
  x.1 * 2 ^ x.2

theorem zpow_eq_div (b : ℚ) (e : Int) : b ^ e = b ^ e.toNat / b ^ (-e).toNat := by
  rcases Int.le_total 0 e with h | h
  · have hneg : (-e).toNat = 0 := by omega
    obtain ⟨k, rfl⟩ := Int.eq_ofNat_of_zero_le h
    simp
  · obtain ⟨k, hk⟩ := Int.eq_ofNat_of_zero_le (Int.neg_nonneg_of_nonpos h)
    have he : e = -(k : Int) := by omega
    subst he
    simp

theorem ratio_eq (mantissa : Nat) (exponent : Int) :
    ratio mantissa exponent = (mantissa * 2 ^ exponent.toNat, 2 ^ (-exponent).toNat) := by
  unfold ratio
  by_cases h : 0 ≤ exponent
  · have hneg : (-exponent).toNat = 0 := by omega
    rw [if_pos h, hneg, Nat.shiftLeft_eq, Nat.pow_zero]
  · have hpos : exponent.toNat = 0 := by omega
    rw [if_neg h, hpos, Nat.shiftLeft_eq, Nat.pow_zero, Nat.mul_one, Nat.one_mul]

theorem shiftRatio_eq (numerator denominator : Nat) (exponent : Int) :
    shiftRatio numerator denominator exponent =
      (numerator * 2 ^ (-exponent).toNat, denominator * 2 ^ exponent.toNat) := by
  unfold shiftRatio
  by_cases h : 0 ≤ exponent
  · have hneg : (-exponent).toNat = 0 := by omega
    rw [if_pos h, hneg, Nat.shiftLeft_eq, Nat.pow_zero, Nat.mul_one]
  · have hpos : exponent.toNat = 0 := by omega
    rw [if_neg h, hpos, Nat.shiftLeft_eq, Nat.pow_zero, Nat.mul_one]

/-- A magnitude as a ratio is that magnitude. -/
theorem div_ratio (x : Nat × Int) :
    ((ratio x.1 x.2).1 : ℚ) / (ratio x.1 x.2).2 = valueOf x := by
  rw [ratio_eq, valueOf, zpow_eq_div]
  push_cast
  ring

theorem ratio_snd_pos (x : Nat × Int) : 0 < (ratio x.1 x.2).2 := by
  rw [ratio_eq]
  positivity

theorem ratio_fst_pos {x : Nat × Int} (h : 1 ≤ valueOf x) : 0 < (ratio x.1 x.2).1 := by
  apply Nat.pos_of_ne_zero
  intro hzero
  rw [← div_ratio, hzero] at h
  norm_num at h

/-- A ratio that is shifted is divided by the power of two. -/
theorem div_shiftRatio (n d : Nat) (e : Int) :
    ((shiftRatio n d e).1 : ℚ) / (shiftRatio n d e).2 = n / d / 2 ^ e := by
  rw [shiftRatio_eq, zpow_eq_div]
  push_cast
  field_simp

theorem shiftRatio_snd_pos {n d : Nat} (h : 0 < d) (e : Int) : 0 < (shiftRatio n d e).2 := by
  rw [shiftRatio_eq]
  positivity

/-! ## Whole numbers near a ratio -/

/-- Rounding does not cross a whole number. -/
theorem roundHalfEven_le {n d c : Nat} (hd : 0 < d) (h : n ≤ c * d) : roundHalfEven n d ≤ c := by
  have hquotient : n / d ≤ c := Nat.div_le_of_le_mul (by rwa [Nat.mul_comm])
  have hdivision := Nat.div_add_mod n d
  simp only [roundHalfEven]
  split
  · exact hquotient
  · rename_i hup
    -- A ratio that is rounded up is no whole number, so its quotient is below the bound.
    rcases Nat.lt_or_eq_of_le hquotient with hlt | heq
    · exact hlt
    · have hrest : n % d = 0 := by
        rw [heq, Nat.mul_comm] at hdivision
        omega
      simp [hrest, hd] at hup

theorem le_roundHalfEven {n d c : Nat} (hd : 0 < d) (h : c * d ≤ n) : c ≤ roundHalfEven n d := by
  have hquotient : c ≤ n / d := (Nat.le_div_iff_mul_le hd).mpr h
  simp only [roundHalfEven]
  split
  · exact hquotient
  · omega

/-- Rounding adds a half at most. -/
theorem two_mul_roundHalfEven_le {n d : Nat} : 2 * (roundHalfEven n d * d) ≤ 2 * n + d := by
  have hdivision := Nat.div_add_mod n d
  have hmul : d * (n / d) = n / d * d := Nat.mul_comm _ _
  simp only [roundHalfEven]
  split
  · omega
  · rename_i hup
    simp only [Bool.or_eq_true, decide_eq_true_eq, Bool.and_eq_true, beq_iff_eq, not_or] at hup
    rw [Nat.add_mul]
    omega

/-! ## The unit -/

/-- The exponent of the last place that a ratio is rounded to. -/
def unitOf (numerator denominator : Nat) : Int :=
  let guess : Int := max (Nat.log2 numerator - Nat.log2 denominator - 53) leastExponent
  let (n, d) := shiftRatio numerator denominator guess
  if n / d < 1 <<< 53 then guess else guess + 1

/-- The mantissa before it is looked at whether it has grown by a digit. -/
def countOf (numerator denominator : Nat) : Nat :=
  let (n, d) := shiftRatio numerator denominator (unitOf numerator denominator)
  roundHalfEven n d

/-- The exponent of a mantissa, with the mantissa brought back to 53 digits. -/
def carried (mantissa : Nat) (exponent : Int) : Nat × Int :=
  if mantissa = 1 <<< 53 then (1 <<< 52, exponent + 1) else (mantissa, exponent)

theorem roundRatio?_eq {n : Nat} (h : n ≠ 0) (d : Nat) :
    roundRatio? n d =
      if largestExponent < (carried (countOf n d) (unitOf n d)).2 then none
      else some (carried (countOf n d) (unitOf n d)) := by
  rw [roundRatio?, if_neg h]
  rfl

theorem valueOf_carried (mantissa : Nat) (exponent : Int) :
    valueOf (carried mantissa exponent) = valueOf (mantissa, exponent) := by
  unfold carried
  split
  · rename_i h
    have hdouble : ((1 <<< 53 : Nat) : ℚ) = ((1 <<< 52 : Nat) : ℚ) * 2 := by
      norm_num [Nat.one_shiftLeft]
    rw [valueOf, valueOf, h, zpow_add_one₀ (by norm_num), hdouble]
    ring
  · rfl

/-- A ratio lies between the powers of two that the digits of its parts say. -/
theorem ratio_bounds {n d : Nat} (hn : 0 < n) (hd : 0 < d) :
    (2 : ℚ) ^ ((n.log2 : Int) - d.log2 - 1) < n / d ∧
      (n : ℚ) / d < 2 ^ ((n.log2 : Int) - d.log2 + 1) := by
  have hnlow : (2 : ℚ) ^ (n.log2 : Int) ≤ n := by
    exact_mod_cast Nat.log2_self_le (Nat.pos_iff_ne_zero.mp hn)
  have hnhigh : (n : ℚ) < 2 ^ ((n.log2 : Int) + 1) := by
    exact_mod_cast Nat.lt_log2_self
  have hdlow : (2 : ℚ) ^ (d.log2 : Int) ≤ d := by
    exact_mod_cast Nat.log2_self_le (Nat.pos_iff_ne_zero.mp hd)
  have hdhigh : (d : ℚ) < 2 ^ ((d.log2 : Int) + 1) := by
    exact_mod_cast Nat.lt_log2_self
  have hdpos : (0 : ℚ) < d := by exact_mod_cast hd
  constructor
  · rw [lt_div_iff₀ hdpos]
    calc (2 : ℚ) ^ ((n.log2 : Int) - d.log2 - 1) * d
        < 2 ^ ((n.log2 : Int) - d.log2 - 1) * 2 ^ ((d.log2 : Int) + 1) := by gcongr
      _ = 2 ^ (n.log2 : Int) := by
          rw [← zpow_add₀ (by norm_num)]
          congr 1
          ring
      _ ≤ n := hnlow
  · rw [div_lt_iff₀ hdpos]
    calc (n : ℚ) < 2 ^ ((n.log2 : Int) + 1) := hnhigh
      _ = 2 ^ ((n.log2 : Int) - d.log2 + 1) * 2 ^ (d.log2 : Int) := by
          rw [← zpow_add₀ (by norm_num)]
          congr 1
          ring
      _ ≤ 2 ^ ((n.log2 : Int) - d.log2 + 1) * d := by gcongr

/-- A ratio has 53 digits before its unit, or fewer if the unit is the least one. -/
structure IsUnit (q : ℚ) (e : Int) : Prop where
  least : leastExponent ≤ e
  high : q < 2 ^ (e + 53)
  low : leastExponent < e → 2 ^ (e + 52) ≤ q

theorem isUnit_unitOf {n d : Nat} (hn : 0 < n) (hd : 0 < d) :
    IsUnit ((n : ℚ) / d) (unitOf n d) := by
  obtain ⟨hlow, hhigh⟩ := ratio_bounds hn hd
  generalize hguess : max ((n.log2 : Int) - d.log2 - 53) leastExponent = guess
  have hshifted : (shiftRatio n d guess).1 / (shiftRatio n d guess).2 < 1 <<< 53 ↔
      (n : ℚ) / d < 2 ^ (guess + 53) := by
    have hpos : 0 < (shiftRatio n d guess).2 := shiftRatio_snd_pos hd guess
    have hposq : (0 : ℚ) < (shiftRatio n d guess).2 := by exact_mod_cast hpos
    have hunits : (2 : ℚ) ^ (guess + 53) = ((1 <<< 53 : Nat) : ℚ) * 2 ^ guess := by
      rw [zpow_add₀ (by norm_num), mul_comm, Nat.one_shiftLeft]
      norm_num
    rw [Nat.div_lt_iff_lt_mul hpos, hunits, ← div_lt_iff₀ (zpow_pos (by norm_num) guess),
      ← div_shiftRatio, div_lt_iff₀ hposq, ← Nat.cast_mul, Nat.cast_lt]
  have hunit : unitOf n d = if (n : ℚ) / d < 2 ^ (guess + 53) then guess else guess + 1 := by
    simp only [unitOf, hguess]
    by_cases h : (n : ℚ) / d < 2 ^ (guess + 53)
    · rw [if_pos h, if_pos (hshifted.mpr h)]
    · rw [if_neg h, if_neg (fun hlt => h (hshifted.mp hlt))]
  rw [hunit]
  split
  · rename_i hlt
    refine ⟨by omega, hlt, ?_⟩
    intro hleast
    have he : guess + 52 = (n.log2 : Int) - d.log2 - 1 := by omega
    rw [he]
    exact hlow.le
  · rename_i hge
    refine ⟨by omega, ?_, ?_⟩
    · refine hhigh.trans_le (zpow_le_zpow_right₀ (by norm_num) ?_)
      omega
    · intro _
      have he : guess + 1 + 52 = guess + 53 := by ring
      rw [he]
      exact not_lt.mp hge

/-! ## The magnitude -/

/-- What a ratio is rounded to, as a multiple of its unit. -/
structure IsRounded (q : ℚ) (e : Int) (m : Nat) : Prop where
  unit : IsUnit q e
  le : ∀ c : Nat, q ≤ c * 2 ^ e → m ≤ c
  ge : ∀ c : Nat, c * 2 ^ e ≤ q → c ≤ m
  half : m * 2 ^ e ≤ q + 2 ^ e / 2

theorem isRounded_countOf {n d : Nat} (hn : 0 < n) (hd : 0 < d) :
    IsRounded ((n : ℚ) / d) (unitOf n d) (countOf n d) := by
  have hpos : 0 < (shiftRatio n d (unitOf n d)).2 := shiftRatio_snd_pos hd _
  have hposq : (0 : ℚ) < (shiftRatio n d (unitOf n d)).2 := by exact_mod_cast hpos
  have hunit : (0 : ℚ) < 2 ^ unitOf n d := zpow_pos (by norm_num) _
  have hratio := div_shiftRatio n d (unitOf n d)
  have hcount : countOf n d = roundHalfEven (shiftRatio n d (unitOf n d)).1
      (shiftRatio n d (unitOf n d)).2 := rfl
  refine ⟨isUnit_unitOf hn hd, ?_, ?_, ?_⟩
  · intro c hc
    rw [hcount]
    apply roundHalfEven_le hpos
    rw [← div_le_iff₀ hunit, ← hratio, div_le_iff₀ hposq] at hc
    exact_mod_cast hc
  · intro c hc
    rw [hcount]
    apply le_roundHalfEven hpos
    rw [← le_div_iff₀ hunit, ← hratio, le_div_iff₀ hposq] at hc
    exact_mod_cast hc
  · have htwice : (2 * (countOf n d * (shiftRatio n d (unitOf n d)).2) : ℚ) ≤
        2 * (shiftRatio n d (unitOf n d)).1 + (shiftRatio n d (unitOf n d)).2 := by
      rw [hcount]
      exact_mod_cast two_mul_roundHalfEven_le
    have hcounted : (countOf n d : ℚ) ≤ n / d / 2 ^ unitOf n d + 1 / 2 := by
      rw [← hratio, ← sub_le_iff_le_add, le_div_iff₀ hposq]
      linarith
    calc (countOf n d : ℚ) * 2 ^ unitOf n d
        ≤ (n / d / 2 ^ unitOf n d + 1 / 2) * 2 ^ unitOf n d := by gcongr
      _ = n / d + 2 ^ unitOf n d / 2 := by field_simp

/-- A half beyond the largest number: from there on nothing is finite. -/
def beyond : ℚ :=
  (2 ^ 54 - 1) * 2 ^ (970 : Int)

theorem two_zpow_add (e : Int) (k : Nat) : (2 : ℚ) ^ (e + k) = ((2 ^ k : Nat) : ℚ) * 2 ^ e := by
  rw [zpow_add₀ (by norm_num), mul_comm, zpow_natCast]
  push_cast
  rfl

theorem two_zpow_le {e j : Int} (h : e ≤ j) : (2 : ℚ) ^ e ≤ 2 ^ j :=
  zpow_le_zpow_right₀ (by norm_num) h

namespace IsRounded

variable {q : ℚ} {e : Int} {m : Nat}

theorem two_zpow_pos (_h : IsRounded q e m) : (0 : ℚ) < 2 ^ e :=
  zpow_pos (by norm_num) e

/-- A ratio above the least unit has at least 53 digits before its unit. -/
theorem low (h : IsRounded q e m) {j : Int} (hj : leastExponent ≤ j) (he : j < e) :
    ((2 ^ 52 : Nat) : ℚ) * 2 ^ e ≤ q := by
  have hlow := h.unit.low (hj.trans_lt he)
  rw [← two_zpow_add]
  exact hlow

/-- A number of at most 53 digits is not crossed upwards. -/
theorem value_le (h : IsRounded q e m) {c : Nat} {j : Int} (hc : c ≤ 2 ^ 53)
    (hj : leastExponent ≤ j) (hq : q ≤ c * 2 ^ j) : (m : ℚ) * 2 ^ e ≤ c * 2 ^ j := by
  have hpos := h.two_zpow_pos
  rcases lt_or_ge j e with hlt | hge
  · -- The unit is above that of the number, so the number is the power of two between them.
    have hlow := h.low hj hlt
    have hnumber : (c : ℚ) * 2 ^ j ≤ ((2 ^ 52 : Nat) : ℚ) * 2 ^ e := by
      calc (c : ℚ) * 2 ^ j ≤ ((2 ^ 53 : Nat) : ℚ) * 2 ^ j := by gcongr
        _ = ((2 ^ 52 : Nat) : ℚ) * 2 ^ (j + 1) := by
            rw [zpow_add_one₀ (by norm_num)]
            push_cast
            ring
        _ ≤ ((2 ^ 52 : Nat) : ℚ) * 2 ^ e := by
            gcongr
            · norm_num
            · omega
    have hm := h.le (2 ^ 52) (hq.trans hnumber)
    calc (m : ℚ) * 2 ^ e ≤ ((2 ^ 52 : Nat) : ℚ) * 2 ^ e := by gcongr
      _ ≤ q := hlow
      _ ≤ c * 2 ^ j := hq
  · obtain ⟨k, hk⟩ := Int.le.dest hge
    have hnumber : (c : ℚ) * 2 ^ j = ((c * 2 ^ k : Nat) : ℚ) * 2 ^ e := by
      rw [← hk, two_zpow_add]
      push_cast
      ring
    rw [hnumber] at hq ⊢
    have hm := h.le _ hq
    gcongr

/-- A power of two is not crossed downwards. -/
theorem le_value (h : IsRounded q e m) {j : Int} (hj : leastExponent ≤ j) (hq : 2 ^ j ≤ q) :
    (2 : ℚ) ^ j ≤ m * 2 ^ e := by
  have hpos := h.two_zpow_pos
  rcases lt_or_ge j e with hlt | hge
  · have hm := h.ge (2 ^ 52) (h.low hj hlt)
    calc (2 : ℚ) ^ j ≤ 2 ^ (e + (52 : Nat)) := two_zpow_le (by omega)
      _ = ((2 ^ 52 : Nat) : ℚ) * 2 ^ e := two_zpow_add e 52
      _ ≤ m * 2 ^ e := by gcongr
  · obtain ⟨k, hk⟩ := Int.le.dest hge
    rw [← hk, two_zpow_add] at hq ⊢
    have hm := h.ge _ hq
    gcongr

/-- What is rounded up grows by one part in `2 ^ 53` at most. -/
theorem value_le_mul (h : IsRounded q e m) (hq : 1 ≤ q) :
    (m : ℚ) * 2 ^ e ≤ q * (1 + 1 / 2 ^ 53) := by
  have hleast : leastExponent < e := by
    by_contra hnot
    have hsmall : q < 1 := by
      calc q < 2 ^ (e + 53) := h.unit.high
        _ ≤ 2 ^ (0 : Int) := two_zpow_le (by rw [leastExponent] at hnot; omega)
        _ = 1 := zpow_zero 2
    exact absurd hq (not_le.mpr hsmall)
  have hlow := h.low le_rfl hleast
  have hhalf := h.half
  push_cast at hlow
  linarith

theorem le_two_pow (h : IsRounded q e m) : m ≤ 2 ^ 53 := by
  apply h.le
  rw [← two_zpow_add]
  exact h.unit.high.le

/-- What is below the bound is finite. -/
theorem exponent_le (h : IsRounded q e m) (hq : q < beyond) :
    (carried m e).2 ≤ largestExponent := by
  have hpos := h.two_zpow_pos
  unfold carried
  split
  · rename_i hfull
    by_contra hbig
    have he : (971 : Int) ≤ e := by
      simp only [largestExponent] at hbig
      omega
    have hhalf := h.half
    have hunits : (2 : ℚ) ^ (971 : Int) ≤ 2 ^ e := two_zpow_le he
    have hm : (m : ℚ) = 2 ^ 53 := by
      rw [hfull, Nat.one_shiftLeft]
      norm_num
    rw [hm] at hhalf
    have hbeyond : beyond = (2 ^ 53 - 1 / 2) * 2 ^ (971 : Int) := by
      rw [beyond, show (971 : Int) = 970 + 1 from rfl, zpow_add_one₀ (by norm_num)]
      ring
    rw [hbeyond] at hq
    linarith
  · by_contra hbig
    have he : (972 : Int) ≤ e := by
      simp only [largestExponent] at hbig
      omega
    have hlow := h.low (j := leastExponent) le_rfl (by rw [leastExponent]; omega)
    have hunits : (2 : ℚ) ^ (972 : Int) ≤ 2 ^ e := two_zpow_le he
    have hbeyond : beyond ≤ ((2 ^ 52 : Nat) : ℚ) * 2 ^ (972 : Int) := by
      rw [← two_zpow_add, show (972 : Int) + (52 : Nat) = 970 + (54 : Nat) from rfl, two_zpow_add,
        beyond]
      gcongr
      norm_num
    have hlarge : ((2 ^ 52 : Nat) : ℚ) * 2 ^ (972 : Int) ≤ ((2 ^ 52 : Nat) : ℚ) * 2 ^ e := by gcongr
    linarith

end IsRounded

/-! ## Rounding a ratio -/

/-- A magnitude of the finite numbers: at most 53 digits, and an exponent in range. -/
structure IsMagnitude (x : Nat × Int) : Prop where
  mantissa : x.1 < 2 ^ 53
  exponent : x.2 ≤ largestExponent

theorem isMagnitude_zero : IsMagnitude (0, leastExponent) :=
  ⟨by decide, by decide⟩

theorem valueOf_nonneg (x : Nat × Int) : 0 ≤ valueOf x := by
  unfold valueOf
  positivity

section

variable {n d : Nat} {x : Nat × Int}

/-- A ratio that is rounded is rounded to a multiple of its unit. -/
theorem isRounded_of_roundRatio? (h : roundRatio? n d = some x) (hn : 0 < n) (hd : 0 < d) :
    ∃ e m, IsRounded ((n : ℚ) / d) e m ∧ valueOf x = m * 2 ^ e ∧ IsMagnitude x := by
  have hrounded := isRounded_countOf hn hd
  rw [roundRatio?_eq hn.ne'] at h
  split at h
  · cases h
  · rename_i hrange
    cases h
    refine ⟨_, _, hrounded, valueOf_carried _ _, ?_, not_lt.mp hrange⟩
    have hle := hrounded.le_two_pow
    unfold carried
    split
    · exact show (1 <<< 52 : Nat) < 2 ^ 53 by decide
    · rename_i hcarry
      rw [Nat.one_shiftLeft] at hcarry
      exact lt_of_le_of_ne hle hcarry

theorem eq_zero_of_roundRatio? (h : roundRatio? 0 d = some x) : x = (0, leastExponent) := by
  rw [roundRatio?, if_pos rfl] at h
  exact (Option.some.inj h).symm

theorem isMagnitude_of_roundRatio? (h : roundRatio? n d = some x) (hd : 0 < d) :
    IsMagnitude x := by
  rcases Nat.eq_zero_or_pos n with rfl | hn
  · rw [eq_zero_of_roundRatio? h]
    exact isMagnitude_zero
  · obtain ⟨-, -, -, -, hmagnitude⟩ := isRounded_of_roundRatio? h hn hd
    exact hmagnitude

/-- Rounding does not cross a number of 53 digits upwards. -/
theorem valueOf_le_of_roundRatio? (h : roundRatio? n d = some x) (hd : 0 < d) {c : Nat} {j : Int}
    (hc : c ≤ 2 ^ 53) (hj : leastExponent ≤ j) (hq : (n : ℚ) / d ≤ c * 2 ^ j) :
    valueOf x ≤ c * 2 ^ j := by
  rcases Nat.eq_zero_or_pos n with rfl | hn
  · rw [eq_zero_of_roundRatio? h]
    simp only [valueOf, Nat.cast_zero, zero_mul]
    positivity
  · obtain ⟨e, m, hrounded, hvalue, -⟩ := isRounded_of_roundRatio? h hn hd
    rw [hvalue]
    exact hrounded.value_le hc hj hq

/-- Rounding does not cross one downwards, and adds little above it. -/
theorem le_valueOf_of_roundRatio? (h : roundRatio? n d = some x) (hd : 0 < d)
    (hq : 1 ≤ (n : ℚ) / d) :
    1 ≤ valueOf x ∧ valueOf x ≤ n / d * (1 + 1 / 2 ^ 53) := by
  have hn : 0 < n := by
    rcases Nat.eq_zero_or_pos n with rfl | hn
    · norm_num at hq
    · exact hn
  obtain ⟨e, m, hrounded, hvalue, -⟩ := isRounded_of_roundRatio? h hn hd
  rw [hvalue]
  refine ⟨?_, hrounded.value_le_mul hq⟩
  have hone := hrounded.le_value (j := 0) (by decide) (by rw [zpow_zero]; exact hq)
  rwa [zpow_zero] at hone

/-- What is below the bound can be rounded. -/
theorem exists_roundRatio? (hd : 0 < d) (hq : (n : ℚ) / d < beyond) :
    ∃ x, roundRatio? n d = some x := by
  rcases Nat.eq_zero_or_pos n with rfl | hn
  · exact ⟨_, rfl⟩
  · have hexponent := (isRounded_countOf hn hd).exponent_le hq
    rw [roundRatio?_eq hn.ne', if_neg (not_lt.mpr hexponent)]
    exact ⟨_, rfl⟩

end

end StatusBoard.Binary64

import StatusBoard.Proofs.Number.Rounding
set_option autoImplicit false

/-!
# Number: decimals that are read

Every decimal that is read is read as a finite number.  And what is not too large is read: a
significand of 64 bits that is only scaled down, and one of seventeen digits that stays below the last
finite number but one when it is scaled up.
-/

namespace StatusBoard.Binary64

/-! ## Powers of ten -/

theorem cast_mul_two_pow (a k : Nat) : ((a * 2 ^ k : Nat) : ℚ) = a * 2 ^ (k : Int) := by
  rw [Nat.cast_mul, Nat.cast_pow, zpow_natCast, Nat.cast_ofNat]

theorem beyond_eq : beyond = (((2 ^ 54 - 1) * 2 ^ 970 : Nat) : ℚ) := by
  have hodd : ((2 ^ 54 - 1 : Nat) : ℚ) = 2 ^ 54 - 1 := by norm_num
  rw [cast_mul_two_pow, hodd, beyond]
  rfl

/-- A power of ten in range is rounded to something near it. -/
theorem exists_roundPower {power : Nat} (h : power ≤ largestPower) :
    ∃ p, roundRatio? (Nat.pow 10 power) 1 = some p ∧ 1 ≤ valueOf p ∧
      valueOf p ≤ 10 ^ power * (1 + 1 / 2 ^ 53) := by
  have hcast : ((Nat.pow 10 power : Nat) : ℚ) / (1 : Nat) = 10 ^ power := by
    norm_num
  have hone : (1 : ℚ) ≤ 10 ^ power := one_le_pow₀ (by norm_num)
  have hbound : (10 : ℚ) ^ power < beyond := by
    calc (10 : ℚ) ^ power ≤ 10 ^ largestPower := pow_le_pow_right₀ (by norm_num) h
      _ = ((10 ^ largestPower : Nat) : ℚ) := by push_cast; rfl
      _ < beyond := by
          rw [beyond_eq, Nat.cast_lt]
          decide +kernel
  obtain ⟨p, hp⟩ := exists_roundRatio? Nat.one_pos (hcast ▸ hbound)
  obtain ⟨hlow, hhigh⟩ := le_valueOf_of_roundRatio? hp Nat.one_pos (hcast ▸ hone)
  rw [hcast] at hhigh
  exact ⟨p, hp, hlow, hhigh⟩

theorem div_mul_ratio (x p : Nat × Int) :
    (((ratio x.1 x.2).1 * (ratio p.1 p.2).1 : Nat) : ℚ) /
      ((ratio x.1 x.2).2 * (ratio p.1 p.2).2 : Nat) = valueOf x * valueOf p := by
  rw [← div_ratio, ← div_ratio, Nat.cast_mul, Nat.cast_mul, div_mul_div_comm]

theorem div_div_ratio (x p : Nat × Int) :
    (((ratio x.1 x.2).1 * (ratio p.1 p.2).2 : Nat) : ℚ) /
      ((ratio x.1 x.2).2 * (ratio p.1 p.2).1 : Nat) = valueOf x / valueOf p := by
  rw [← div_ratio, ← div_ratio, Nat.cast_mul, Nat.cast_mul, div_div_div_eq]

/-- A product that stays below the bound is finite. -/
theorem exists_scaleUp? {x : Nat × Int} {power : Nat} (hpower : power ≤ largestPower)
    (hx : valueOf x * (10 ^ power * (1 + 1 / 2 ^ 53)) < beyond) :
    ∃ y, scaleUp? x power = some y := by
  obtain ⟨p, hp, -, hhigh⟩ := exists_roundPower hpower
  have hproduct : valueOf x * valueOf p < beyond :=
    (mul_le_mul_of_nonneg_left hhigh (valueOf_nonneg x)).trans_lt hx
  rw [← div_mul_ratio] at hproduct
  rw [scaleUp?, hp, Option.bind_some]
  exact exists_roundRatio? (Nat.mul_pos (ratio_snd_pos x) (ratio_snd_pos p)) hproduct

/-- A quotient stays finite, and in bounds. -/
theorem exists_scaleDown? {x : Nat × Int} {power : Nat} (hpower : power ≤ largestPower)
    (hx : valueOf x ≤ 2 ^ 64) : ∃ y, scaleDown? x power = some y ∧ valueOf y ≤ 2 ^ 64 := by
  obtain ⟨p, hp, hone, -⟩ := exists_roundPower hpower
  have hquotient : valueOf x / valueOf p ≤ 2 ^ 64 :=
    (div_le_self (valueOf_nonneg x) hone).trans hx
  have hpos : 0 < (ratio x.1 x.2).2 * (ratio p.1 p.2).1 :=
    Nat.mul_pos (ratio_snd_pos x) (ratio_fst_pos hone)
  have hsmall : (2 : ℚ) ^ 64 < beyond := by
    calc (2 : ℚ) ^ 64 = ((2 ^ 64 : Nat) : ℚ) := by norm_num
      _ < beyond := by
          rw [beyond_eq, Nat.cast_lt]
          decide +kernel
  rw [← div_div_ratio] at hquotient
  obtain ⟨y, hy⟩ := exists_roundRatio? hpos (hquotient.trans_lt hsmall)
  have hle := valueOf_le_of_roundRatio? (c := 1) (j := 64) hy hpos (by norm_num) (by decide)
    (by norm_num at hquotient ⊢; exact hquotient)
  refine ⟨y, ?_, ?_⟩
  · rw [scaleDown?, hp, Option.bind_some]
    exact hy
  · norm_num at hle ⊢
    exact hle

/-- So does one by any power of ten. -/
theorem exists_scaleDownBy? (steps : Nat) {x : Nat × Int} (hx : valueOf x ≤ 2 ^ 64) (power : Nat) :
    ∃ y, scaleDownBy? steps x power = some y := by
  induction steps generalizing x power with
  | zero => exact ⟨_, rfl⟩
  | succ steps ih =>
      unfold scaleDownBy?
      split
      · rename_i hpower
        obtain ⟨y, hy, -⟩ := exists_scaleDown? hpower hx
        exact ⟨y, hy⟩
      · obtain ⟨y, hy, hle⟩ := exists_scaleDown? (le_refl largestPower) hx
        rw [hy, Option.bind_some]
        exact ih hle _

/-! ## Decimals -/

/-- The largest decimals that are read for sure: the next binary number is the last one. -/
def almostBeyond : Nat :=
  (2 ^ 54 - 3) * 2 ^ 970

/-- A decimal that is read for sure. -/
inductive IsReadable (significand : Nat) (exponent : Int) : Prop where
  | scaledDown (hsignificand : significand < 2 ^ 64) (hexponent : exponent ≤ 0)
  | scaledUp (hdigits : significand ≤ 10 ^ 17) (hexponent : 0 ≤ exponent)
      (hle : significand * 10 ^ exponent.toNat ≤ almostBeyond)
  /-- The last finite number itself, with the fewest digits. -/
  | last (hsignificand : significand = 17976931348623157) (hexponent : exponent = 292)

theorem almostBeyond_eq : (almostBeyond : ℚ) = (2 ^ 54 - 3) * 2 ^ (970 : Int) := by
  have hodd : ((2 ^ 54 - 3 : Nat) : ℚ) = 2 ^ 54 - 3 := by norm_num
  rw [almostBeyond, cast_mul_two_pow, hodd]
  rfl

/-- Growing by one part in `2 ^ 53` does not lead from the last numbers beyond. -/
theorem almostBeyond_lt : (almostBeyond : ℚ) * (1 + 1 / 2 ^ 53) < beyond := by
  have hunit : (0 : ℚ) < 2 ^ (970 : Int) := zpow_pos (by norm_num) _
  rw [almostBeyond_eq, beyond]
  have hparts : ((2 : ℚ) ^ 54 - 3) * (1 + 1 / 2 ^ 53) < 2 ^ 54 - 1 := by norm_num
  have hscaled := mul_lt_mul_of_pos_right hparts hunit
  have hassoc : ((2 : ℚ) ^ 54 - 3) * (1 + 1 / 2 ^ 53) * 2 ^ (970 : Int) =
      (2 ^ 54 - 3) * 2 ^ (970 : Int) * (1 + 1 / 2 ^ 53) := by ring
  rw [hassoc] at hscaled
  exact hscaled

attribute [irreducible] almostBeyond

/-- The significand of a decimal, brought to its power of ten. -/
def scaled? (start : Nat × Int) (exponent : Int) : Option (Nat × Int) :=
  if start.1 = 0 then some start
  else if exponent < 0 then scaleDownBy? 4 start (-exponent).toNat
  else if exponent.toNat ≤ largestPower then scaleUp? start exponent.toNat
  else none

theorem ofDecimal?_eq (negative : Bool) (significand : Nat) (exponent : Int) :
    ofDecimal? negative significand exponent =
      (roundRatio? significand 1).bind fun start =>
        (scaled? start exponent).map fun x => ⟨negative, x.1, x.2⟩ := by
  simp only [ofDecimal?, scaled?, Option.bind_eq_bind, Option.map_eq_bind]
  refine congrArg _ (funext fun start => ?_)
  split_ifs <;> rfl

/-- A significand is not rounded beyond a whole number of 53 digits and zeros. -/
theorem valueOf_significand_le {significand : Nat} {start : Nat × Int}
    (h : roundRatio? significand 1 = some start) {c j : Nat} (hc : c ≤ 2 ^ 53)
    (hle : significand ≤ c * 2 ^ j) : valueOf start ≤ ((c * 2 ^ j : Nat) : ℚ) := by
  rw [cast_mul_two_pow]
  refine valueOf_le_of_roundRatio? h Nat.one_pos hc (by rw [leastExponent]; omega) ?_
  rw [Nat.cast_one, div_one, ← cast_mul_two_pow]
  exact_mod_cast hle

theorem two_pow_le_almostBeyond : 2 ^ 64 ≤ almostBeyond := by
  decide +kernel

/-- A product that is not beyond the last numbers is finite. -/
theorem exists_scaleUp?_of_le {start : Nat × Int} {power bound : Nat}
    (hpower : power ≤ largestPower) (hstart : valueOf start ≤ bound)
    (hbound : bound * 10 ^ power ≤ almostBeyond) : ∃ x, scaleUp? start power = some x := by
  apply exists_scaleUp? hpower
  have hcast : (bound : ℚ) * 10 ^ power ≤ almostBeyond := by exact_mod_cast hbound
  calc valueOf start * (10 ^ power * (1 + 1 / 2 ^ 53))
      ≤ (bound : ℚ) * (10 ^ power * (1 + 1 / 2 ^ 53)) := by gcongr
    _ = (bound : ℚ) * 10 ^ power * (1 + 1 / 2 ^ 53) := by ring
    _ ≤ (almostBeyond : ℚ) * (1 + 1 / 2 ^ 53) := by gcongr
    _ < beyond := almostBeyond_lt

/-- A significand of seventeen digits is below a number of 53 binary digits and zeros that may still
be multiplied by the power of ten. -/
theorem exists_bound {significand power : Nat} (hdigits : significand ≤ 10 ^ 17)
    (hle : significand * 10 ^ power ≤ almostBeyond) (hpower : power ≤ largestPower) :
    ∃ c j, c ≤ 2 ^ 53 ∧ significand ≤ c * 2 ^ j ∧ c * 2 ^ j * 10 ^ power ≤ almostBeyond := by
  rcases Nat.lt_trichotomy power 292 with hsmall | rfl | hlarge
  · refine ⟨10 ^ 17 / 2 ^ 4, 4, by decide, hdigits, ?_⟩
    calc 10 ^ 17 / 2 ^ 4 * 2 ^ 4 * 10 ^ power ≤ 10 ^ 17 / 2 ^ 4 * 2 ^ 4 * 10 ^ 291 := by
          gcongr
          · decide
          · omega
      _ ≤ almostBeyond := by decide +kernel
  · refine ⟨almostBeyond / 10 ^ 292 / 2, 1, by decide +kernel, ?_, by decide +kernel⟩
    calc significand ≤ almostBeyond / 10 ^ 292 := (Nat.le_div_iff_mul_le (by positivity)).mpr hle
      _ = almostBeyond / 10 ^ 292 / 2 * 2 ^ 1 := by decide +kernel
  · refine ⟨significand, 0, ?_, by simp, by simpa using hle⟩
    have hscaled : significand * 10 ^ 293 ≤ almostBeyond := by
      refine le_trans ?_ hle
      gcongr
      · decide
      · omega
    calc significand ≤ almostBeyond / 10 ^ 293 :=
          (Nat.le_div_iff_mul_le (by positivity)).mpr hscaled
      _ ≤ 2 ^ 53 := by decide +kernel

/-- A power of ten that something is multiplied by without going beyond the last numbers is finite. -/
theorem le_largestPower {significand power : Nat} (hpos : 0 < significand)
    (hle : significand * 10 ^ power ≤ almostBeyond) : power ≤ largestPower := by
  by_contra hbig
  have hpower : 10 ^ 309 ≤ almostBeyond := by
    calc 10 ^ 309 ≤ 10 ^ power := by
          gcongr
          · decide
          · rw [largestPower] at hbig
            omega
      _ ≤ significand * 10 ^ power := Nat.le_mul_of_pos_left _ hpos
      _ ≤ almostBeyond := hle
  exact absurd hpower (by decide +kernel)

/-- A significand of 64 bits is finite, and in bounds. -/
theorem exists_start {significand : Nat} (h : significand ≤ 2 ^ 64) :
    ∃ start, roundRatio? significand 1 = some start ∧ valueOf start ≤ ((2 ^ 64 : Nat) : ℚ) := by
  have hfinite : ((significand : Nat) : ℚ) / (1 : Nat) < beyond := by
    rw [Nat.cast_one, div_one]
    calc (significand : ℚ) ≤ (almostBeyond : ℚ) :=
          Nat.cast_le.mpr (h.trans two_pow_le_almostBeyond)
      _ ≤ (almostBeyond : ℚ) * (1 + 1 / 2 ^ 53) :=
          le_mul_of_one_le_right (Nat.cast_nonneg _) (by norm_num)
      _ < beyond := almostBeyond_lt
  obtain ⟨start, hstart⟩ := exists_roundRatio? Nat.one_pos hfinite
  have hbound := valueOf_significand_le (c := 1) (j := 64) hstart (by norm_num) (by omega)
  rw [Nat.one_mul] at hbound
  exact ⟨start, hstart, hbound⟩

/-- Such a decimal is a finite number. -/
theorem exists_ofDecimal? {significand : Nat} {exponent : Int} (h : IsReadable significand exponent)
    (negative : Bool) : ∃ x, ofDecimal? negative significand exponent = some x := by
  have hread : ∀ {start}, roundRatio? significand 1 = some start →
      (∃ x, scaled? start exponent = some x) →
      ∃ x, ofDecimal? negative significand exponent = some x := by
    rintro start hstart ⟨x, hx⟩
    exact ⟨_, by rw [ofDecimal?_eq, hstart, Option.bind_some, hx, Option.map_some]⟩
  cases h with
  | scaledDown hsignificand hexponent =>
      obtain ⟨start, hstart, hbound⟩ := exists_start hsignificand.le
      apply hread hstart
      unfold scaled?
      split
      · exact ⟨_, rfl⟩
      · split
        · exact exists_scaleDownBy? 4 (by exact_mod_cast hbound) _
        · have hnone : exponent.toNat = 0 := by omega
          rw [hnone, if_pos (Nat.zero_le _)]
          apply exists_scaleUp?_of_le (Nat.zero_le _) hbound
          rw [Nat.pow_zero, Nat.mul_one]
          exact two_pow_le_almostBeyond
  | scaledUp hdigits hexponent hle =>
      obtain ⟨start, hstart, -⟩ := exists_start (hdigits.trans (by norm_num))
      apply hread hstart
      unfold scaled?
      split
      · exact ⟨_, rfl⟩
      · rename_i hzero
        have hpos : 0 < significand := by
          apply Nat.pos_of_ne_zero
          rintro rfl
          rw [eq_zero_of_roundRatio? hstart] at hzero
          exact hzero rfl
        have hpower := le_largestPower hpos hle
        obtain ⟨c, j, hc, hsignificand, hbound⟩ := exists_bound hdigits hle hpower
        rw [if_neg (not_lt.mpr hexponent), if_pos hpower]
        exact exists_scaleUp?_of_le hpower (valueOf_significand_le hstart hc hsignificand) hbound
  | last hsignificand hexponent =>
      rw [hsignificand, hexponent]
      apply Option.isSome_iff_exists.mp
      cases negative <;> decide +kernel

/-! ## Finite numbers -/

/-- A number of the finite range. -/
def IsFinite (x : Binary64) : Prop :=
  IsMagnitude (x.mantissa, x.exponent)

section

variable {x y : Nat × Int} {power : Nat}

theorem isMagnitude_of_scaleUp? (h : scaleUp? x power = some y) : IsMagnitude y := by
  obtain ⟨p, -, hy⟩ := Option.bind_eq_some_iff.mp h
  exact isMagnitude_of_roundRatio? hy (Nat.mul_pos (ratio_snd_pos x) (ratio_snd_pos p))

theorem isMagnitude_of_scaleDown? (h : scaleDown? x power = some y) : IsMagnitude y := by
  obtain ⟨p, hp, hy⟩ := Option.bind_eq_some_iff.mp h
  have hone : (1 : ℚ) ≤ (Nat.pow 10 power : Nat) / (1 : Nat) := by
    rw [Nat.cast_one, div_one, Nat.one_le_cast]
    exact Nat.one_le_pow _ _ (by decide)
  obtain ⟨hlow, -⟩ := le_valueOf_of_roundRatio? hp Nat.one_pos hone
  exact isMagnitude_of_roundRatio? hy (Nat.mul_pos (ratio_snd_pos x) (ratio_fst_pos hlow))

theorem isMagnitude_of_scaleDownBy? {steps : Nat} (h : scaleDownBy? steps x power = some y) :
    IsMagnitude y := by
  induction steps generalizing x power with
  | zero =>
      cases h
      exact isMagnitude_zero
  | succ steps ih =>
      unfold scaleDownBy? at h
      split at h
      · exact isMagnitude_of_scaleDown? h
      · obtain ⟨z, -, hy⟩ := Option.bind_eq_some_iff.mp h
        exact ih hy

theorem isMagnitude_of_scaled? {exponent : Int} (hx : IsMagnitude x)
    (h : scaled? x exponent = some y) : IsMagnitude y := by
  unfold scaled? at h
  split at h
  · cases h
    exact hx
  · split at h
    · exact isMagnitude_of_scaleDownBy? h
    · split at h
      · exact isMagnitude_of_scaleUp? h
      · cases h

end

/-- Whatever decimal is read, a finite number is read. -/
theorem isFinite_of_ofDecimal? {negative : Bool} {significand : Nat} {exponent : Int}
    {x : Binary64} (h : ofDecimal? negative significand exponent = some x) : x.IsFinite := by
  rw [ofDecimal?_eq] at h
  obtain ⟨start, hstart, h⟩ := Option.bind_eq_some_iff.mp h
  obtain ⟨y, hy, hx⟩ := Option.map_eq_some_iff.mp h
  rw [← hx]
  exact isMagnitude_of_scaled? (isMagnitude_of_roundRatio? hstart Nat.one_pos) hy

end StatusBoard.Binary64

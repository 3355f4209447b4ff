import Mathlib.Order.Basic
import StatusBoard.Proofs.Instant.RoundTrip
set_option autoImplicit false

/-!
# Instant: order, and times of whole microseconds

Rows keep times to the microsecond.  A time of whole microseconds is kept as it is, so for such times
the order of what was written is the order of what is read.
-/

namespace StatusBoard.Instant

/-! ## Order -/

instance : Preorder Instant where
  le_refl t := Int.le_refl t.rank
  le_trans _ _ _ := Int.le_trans
  lt_iff_le_not_ge _ _ := Int.lt_iff_le_and_not_ge

theorem le_latest_right (a b : Instant) : b ≤ latest a b := by
  unfold latest
  by_cases h : a ≤ b
  · rw [if_pos h]
  · rw [if_neg h]
    exact Int.le_of_not_le h

/-! ## Whole microseconds -/

/-- The instant has nothing that is finer than a microsecond. -/
def IsMicro (t : Instant) : Prop :=
  t.nano % 1000 = 0

instance (t : Instant) : Decidable t.IsMicro :=
  inferInstanceAs (Decidable (t.nano % 1000 = 0))

theorem IsMicro.truncateMicros_eq {t : Instant} (h : t.IsMicro) : t.truncateMicros = t := by
  have hnano : t.nano - t.nano % 1000 = t.nano := by
    rw [h, Nat.sub_zero]
  cases t
  simp only [truncateMicros, Instant.mk.injEq, true_and]
  exact hnano

theorem IsMicro.latest {a b : Instant} (ha : a.IsMicro) (hb : b.IsMicro) :
    (latest a b).IsMicro := by
  unfold Instant.latest
  by_cases h : a ≤ b
  · rw [if_pos h]
    exact hb
  · rw [if_neg h]
    exact ha

/-- What a row holds of a time of whole microseconds is read as that time, if it is read. -/
theorem IsMicro.eq_of_parseStrict? {t u : Instant} (h : t.IsMicro)
    (hread : parseStrict? t.toStorageText = some u) : u = t := by
  rw [eq_truncateMicros_of_parseStrict? hread, h.truncateMicros_eq]

end StatusBoard.Instant

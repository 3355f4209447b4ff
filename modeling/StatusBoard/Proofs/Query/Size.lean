import StatusBoard.Proofs.Store.Decoding
import StatusBoard.Query.Size
set_option autoImplicit false

/-!
# Query: what the limits come to

The two statements of a search have the same query, and the listing takes some more values behind it.  So
a query that the listing has room for is one that the count has room for.
-/

namespace StatusBoard

theorem QueryExcess.counted_eq_ok_iff {count : Nat} {u : Unit} :
    counted count = .ok u ↔ count ≤ variableLimit := by
  unfold counted
  split <;> simp_all

namespace Query

variable {q : Query} {height : Nat}

/-- A query has room in a statement if it does not get too high, the statement does not take too many
values, and no question on a condition gets too high. -/
theorem measureIn_eq_ok_iff {statement : Statement} :
    q.measureIn statement = .ok height ↔
      q.height = .ok height ∧ q.values + statement.holes ≤ QueryExcess.variableLimit ∧
      (q.parts.any Clause.isCondition = true →
        height + conditionHeight ≤ QueryExcess.heightLimit) := by
  unfold measureIn
  simp only [bind_eq_ok_iff, QueryExcess.counted_eq_ok_iff]
  constructor
  · rintro ⟨found, hheight, ⟨⟩, hvalues, h⟩
    split at h
    · cases h
    · rename_i hroom
      cases h
      refine ⟨hheight, hvalues, fun hcondition => ?_⟩
      simpa [hcondition] using hroom
  · rintro ⟨hheight, hvalues, hroom⟩
    refine ⟨height, hheight, (), hvalues, ?_⟩
    rw [if_neg (by simpa using hroom)]
    rfl

/-- What the listing has room for, the count has room for. -/
theorem measureIn_of_measure (h : q.measure = .ok height) (statement : Statement) :
    q.measureIn statement = .ok height := by
  obtain ⟨hheight, hvalues, hroom⟩ := measureIn_eq_ok_iff.mp h
  have hfewer : statement.holes ≤ Statement.listing.holes := by
    cases statement <;> decide
  exact measureIn_eq_ok_iff.mpr ⟨hheight, by omega, hroom⟩

end Query
end StatusBoard

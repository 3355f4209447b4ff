import StatusBoard.Proofs.Settings
import StatusBoard.Proofs.Store.Page
import StatusBoard.Service.Board
set_option autoImplicit false

/-!
# Service: the pages that callers get

Settings bound the size of a page by whatever fits in 32 bits, and callers may ask for any page.  So
pages start where they should for all callers exactly if the greatest size is one of the lower half,
give or take one.
-/

namespace StatusBoard

/-- Sizes of pages that settings pass with are in order. -/
theorem Settings.pageSizes_of_validate {s : Settings} (h : s.validate = .ok ()) :
    1 ≤ s.defaultPageSize.toNat ∧ s.defaultPageSize.toNat ≤ s.maxPageSize.toNat :=
  have hsound := validate_eq_ok_iff.mp h
  ⟨hsound.least, hsound.most⟩

namespace Paging

/-- A page is counted from one, and its size is one that is allowed. -/
theorem resolve_within {paging : Paging} (hmax : 1 ≤ paging.maxPageSize.toNat)
    (page pageSize : Option UInt32) :
    1 ≤ (paging.resolve page pageSize).page.toNat ∧
      1 ≤ (paging.resolve page pageSize).pageSize.toNat ∧
      (paging.resolve page pageSize).pageSize.toNat ≤ paging.maxPageSize.toNat := by
  have hone : (1 : UInt32).toNat = 1 := rfl
  simp only [resolve, PageRequest.clamped, UInt32.toNat_max, UInt32.toNat_min, hone]
  omega

/-- The last page of the greatest size is what it says. -/
theorem start_resolve_last {paging : Paging} (hmax : 1 ≤ paging.maxPageSize.toNat) :
    (paging.resolve (some (UInt32.ofNat (2 ^ 32 - 1))) (some paging.maxPageSize)).start =
      (2 ^ 32 - 2) * paging.maxPageSize.toNat := by
  have hone : (1 : UInt32).toNat = 1 := rfl
  have hlast : (UInt32.ofNat (2 ^ 32 - 1)).toNat = 2 ^ 32 - 1 := rfl
  simp only [resolve, PageRequest.clamped, PageRequest.start, UInt32.toNat_max, UInt32.toNat_min,
    Option.getD_some, hone, hlast]
  congr 1
  omega

end Paging

namespace Settings

/-- With settings that can be run with, every caller gets a page from one on, of a size within the
limits.  It starts where it should if fewer than 2^63 items are before it, and else over with the
first item.  It starts where it should for all callers exactly if pages have at most 2^31 + 1
items. -/
theorem pages_start_right_iff {s : Settings} (h : s.validate = .ok ()) :
    (∀ page pageSize p, p = s.board.paging.resolve page pageSize →
      1 ≤ p.page.toNat ∧ 1 ≤ p.pageSize.toNat ∧ p.pageSize.toNat ≤ s.maxPageSize.toNat ∧
      (p.start < 2 ^ 63 → p.StartsRight) ∧ (2 ^ 63 ≤ p.start → p.StartsOver)) ∧
    ((∀ page pageSize, (s.board.paging.resolve page pageSize).StartsRight) ↔
      s.maxPageSize.toNat ≤ 2 ^ 31 + 1) := by
  obtain ⟨hdefault, hsizes⟩ := s.pageSizes_of_validate h
  have hmax : 1 ≤ s.board.paging.maxPageSize.toNat := hdefault.trans hsizes
  refine ⟨?_, ?_, ?_⟩
  · rintro page pageSize p rfl
    obtain ⟨hpage, hpositive, hbound⟩ := Paging.resolve_within hmax page pageSize
    exact ⟨hpage, hpositive, hbound, PageRequest.startsRight_of_lt, PageRequest.startsOver_of_le⟩
  · intro hall
    have hlast := PageRequest.startsRight_iff.mp (hall (some (UInt32.ofNat (2 ^ 32 - 1)))
      (some s.maxPageSize))
    have hstart := Paging.start_resolve_last hmax
    have hsame : s.board.paging.maxPageSize = s.maxPageSize := rfl
    rw [hsame] at hstart
    rw [hstart] at hlast
    omega
  · intro hbound page pageSize
    refine PageRequest.startsRight_of_lt ?_
    obtain ⟨-, -, hsize⟩ := Paging.resolve_within hmax page pageSize
    have hpage := (s.board.paging.resolve page pageSize).page.toNat_lt
    calc (s.board.paging.resolve page pageSize).start
        ≤ (2 ^ 32 - 2) * (2 ^ 31 + 1) := Nat.mul_le_mul (by omega) (hsize.trans hbound)
      _ < 2 ^ 63 := by norm_num

/-- The last page of the size that is the greatest by default. -/
theorem pages_start_right_sample :
    ((default none).board.paging.resolve (some (UInt32.ofNat (2 ^ 32 - 1))) (some 1000)).StartsRight := by
  have hvalid : (default none).validate = .ok () := by decide +kernel
  exact (pages_start_right_iff hvalid).2.mpr (by decide) _ _

/-- Settings that pass with pages of any size. -/
def boundless : Settings :=
  { default none with maxPageSize := UInt32.ofNat (2 ^ 32 - 1) }

/-- The last page of the greatest size starts below zero. -/
theorem boundless_page_starts_over :
    ¬ ∀ s : Settings, s.validate = .ok () →
      ∀ page pageSize, (s.board.paging.resolve page pageSize).offset.toInt =
        (s.board.paging.resolve page pageSize).start := by
  intro h
  have hvalid : boundless.validate = .ok () := by decide +kernel
  have hlast := h boundless hvalid (some (UInt32.ofNat (2 ^ 32 - 1)))
    (some (UInt32.ofNat (2 ^ 32 - 1)))
  revert hlast
  decide +kernel

end Settings
end StatusBoard

import StatusBoard.Proofs.Instant.TextOrder
import StatusBoard.Proofs.Store.ByteOrder
import StatusBoard.Proofs.Store.Consistency
import StatusBoard.Proofs.Store.Page
set_option autoImplicit false

/-!
# Store: pages cut a listing into parts

The pages of a listing are asked for one by one, and each is computed from the whole table.  As long
as nothing is written in between, they are the parts of one list: every item of it is on one page,
and all pages but the last are full.  For that the items have to stand in an order that leaves no
two of them on a par.
-/

namespace StatusBoard

/-! ## Parts of a list -/

namespace PageRequest

/-- The page of a listing whose items are converted. -/
theorem map_slice {α β : Type} (p : PageRequest) (f : α → β) (items : List α) :
    (p.slice items).map f = p.slice (items.map f) := by
  rw [slice, slice, List.map_take, List.map_drop]

end PageRequest

/-- Items with keys that all differ stand in strict order once they are sorted. -/
theorem pairwise_mergeSort_of_keys {α κ : Type} {le : α → α → Bool} {lt : α → α → Prop}
    {key : α → κ} {items : List α}
    (htrans : ∀ a b c, le a b = true → le b c = true → le a c = true)
    (htotal : ∀ a b, (le a b || le b a) = true) (hkeys : (items.map key).Nodup)
    (hlt : ∀ a ∈ items, ∀ b ∈ items, le a b = true → key a ≠ key b → lt a b) :
    (items.mergeSort le).Pairwise lt := by
  have hperm := List.mergeSort_perm items le
  have hdiffer := List.pairwise_map.mp ((hperm.map key).nodup_iff.mpr hkeys)
  refine ((List.pairwise_mergeSort htrans htotal items).and hdiffer).imp_of_mem ?_
  rintro a b ha hb ⟨hle, hne⟩
  exact hlt a (hperm.mem_iff.mp ha) b (hperm.mem_iff.mp hb) hle hne

/-- A resource is before another: it was created earlier, or at the same time with the smaller
identity. -/
def Resource.IsBefore (x y : Resource) : Prop :=
  x.createdTime < y.createdTime ∨ (x.createdTime = y.createdTime ∧ x.id.toText < y.id.toText)

/-- Times that rows were read with are in the order of their texts. -/
theorem Instant.compare_of_parseStrict? {t u a b : Instant}
    (ha : parseStrict? t.toStorageText = some a) (hb : parseStrict? u.toStorageText = some b) :
    compareOfLessAndEq a.toStorageText b.toStorageText = compare a.rank b.rank := by
  have hmicro : ∀ {t a : Instant}, parseStrict? t.toStorageText = some a → a.truncateMicros = a := by
    intro t a h
    rw [← toStorageText_of_parseStrict? h] at h
    exact (eq_truncateMicros_of_parseStrict? h).symm
  rw [order_of_early (years_of_parseStrict? ha) (years_of_parseStrict? hb).2, hmicro ha, hmicro hb]

namespace ResourceRow.IsWritten

/-- Resources with different identities that are read from written rows are one before the other. -/
theorem isBefore_of_isListedBefore {r r' : ResourceRow} {x y : Resource} (h : r.IsWritten)
    (hread : Resource.ofRow r = .ok x) (h' : r'.IsWritten) (hread' : Resource.ofRow r' = .ok y)
    (hle : x.isListedBefore y = true) (hne : x.id.toText ≠ y.id.toText) : x.IsBefore y := by
  obtain ⟨t, ht⟩ := h.createdTime
  obtain ⟨u, hu⟩ := h'.createdTime
  have horder := Instant.compare_of_parseStrict?
    (Cell.read_eq ht (Resource.ofRow_eq_ok_iff.mp hread).createdTime)
    (Cell.read_eq hu (Resource.ofRow_eq_ok_iff.mp hread').createdTime)
  obtain hlt | ⟨heq, hid⟩ := Resource.isListedBefore_iff.mp hle
  · rw [compareOfLessAndEq, if_pos hlt] at horder
    exact .inl (Int.compare_eq_lt.mp horder.symm)
  · rw [heq, compareOfLessAndEq, if_neg (String.lt_irrefl _), if_pos rfl] at horder
    have hsame := Instant.rank_inj.mp (Int.compare_eq_eq.mp horder.symm)
    exact .inr ⟨hsame, String.not_le.mp fun hge => hne (String.le_antisymm hid hge)⟩

end ResourceRow.IsWritten

/-! ## Pages of a search -/

namespace Store

variable {s : Store} {cancel : Cancellation} {size : UInt32}

/-- The live resources of a kind, as their rows are read, all have identities of their own. -/
theorem IsWritten.nodup_ids (h : s.IsWritten) (hids : s.resources.Pairwise fun a b => a.id ≠ b.id)
    {isShown : ResourceRow → Bool} {live : List Resource}
    (hlive : (s.resources.filter isShown).mapM Resource.ofRow = .ok live) :
    (live.map fun x => x.id.toText).Nodup := by
  obtain ⟨f, hf⟩ := h.exists_reading
  have hmap := Selection.mapM_eq_ok fun r hr =>
    (hf r (List.mem_of_mem_filter (p := isShown) hr)).2
  cases hlive.symm.trans hmap
  rw [List.map_map, List.Nodup, List.pairwise_map]
  refine (hids.filter isShown).imp_of_mem fun {a b} ha hb hne hsame => hne ?_
  rw [(hf a (List.mem_of_mem_filter ha)).1.id, (hf b (List.mem_of_mem_filter hb)).1.id]
  exact congrArg Cell.text hsame

end Store

/-! ## Pages of statuses -/

/-- Texts are one before the other, or alike. -/
theorem Cell.precedes_text {a b : String} :
    precedes (.text a) (.text b) = true ↔ a ≤ b := by
  rw [precedes, order, compareOfLessAndEq]
  by_cases hlt : a < b
  · simp [hlt, String.not_lt.mp (String.lt_asymm hlt)]
  · by_cases heq : a = b
    · simp [heq]
    · have hnot : ¬ a ≤ b := fun hle => heq (String.le_antisymm hle (String.not_lt.mp hlt))
      simp [hlt, heq, hnot]

namespace StatusRecord

/-- A status is listed before another: by the bytes of its adapter. -/
def IsBefore (x y : StatusRecord) : Prop :=
  Cell.compareBytes (bytesOf x.key.adapter) (bytesOf y.key.adapter) = .lt

/-- Adapters are ordered as their texts are. -/
def isListedBefore (x y : StatusRecord) : Bool :=
  Cell.precedes (.text x.key.adapter) (.text y.key.adapter)

theorem isListedBefore_trans (x y z : StatusRecord) (hxy : x.isListedBefore y = true)
    (hyz : y.isListedBefore z = true) : x.isListedBefore z = true :=
  Cell.precedes_text.mpr (String.le_trans (Cell.precedes_text.mp hxy) (Cell.precedes_text.mp hyz))

theorem isListedBefore_total (x y : StatusRecord) :
    (x.isListedBefore y || y.isListedBefore x) = true := by
  rw [Bool.or_eq_true, isListedBefore, isListedBefore, Cell.precedes_text, Cell.precedes_text]
  exact String.le_total _ _

theorem isBefore_of_isListedBefore {x y : StatusRecord} (hle : x.isListedBefore y = true)
    (hne : x.key.adapter ≠ y.key.adapter) : x.IsBefore y := by
  have hlt : x.key.adapter < y.key.adapter :=
    String.not_le.mp fun hge => hne (String.le_antisymm (Cell.precedes_text.mp hle) hge)
  rw [IsBefore, ← Cell.order_text, Cell.order, compareOfLessAndEq, if_pos hlt]

end StatusRecord

namespace Store.Consistent

variable {s : Store} {written : List StatusKey} {size : UInt32}

/-- A resource's statuses are listed page by page from one list: that of all its live statuses, in
byte order of their adapters. -/
theorem listStatuses_eq (h : s.Consistent written) (resource : ResourceRef) :
    ∃ records all,
      (s.statuses.filter (·.isAbout resource)).mapM StatusRecord.ofRow = .ok records ∧
      all.Perm records ∧ all.Pairwise StatusRecord.IsBefore ∧
      ∀ cancel ≠ Cancellation.before, ∀ page, s.listStatuses cancel resource page =
        .ok ⟨page.slice all, page.page, page.pageSize, all.length⟩ := by
  let rows := s.statuses.filter (·.isAbout resource)
  have hrow : ∀ r ∈ rows, ∃ record, StatusRecord.ofRow r = .ok record := by
    intro r hr
    obtain ⟨hr, habout⟩ := List.mem_filter.mp hr
    exact h.readable r hr (StatusRow.isAbout_iff.mp habout).2.2
  choose! f hf using hrow
  have hadapter : ∀ r ∈ rows, r.adapter = .text (f r).key.adapter := by
    intro r hr
    exact (StatusRecord.says_of_ofRow (hf r hr)).adapter
  let sorted := rows.mergeSort fun a b => Cell.precedes a.adapter b.adapter
  have hsorted : sorted.map f = (rows.map f).mergeSort StatusRecord.isListedBefore := by
    apply List.map_mergeSort
    intro a ha b hb
    rw [hadapter a ha, hadapter b hb]
    rfl
  have hperm := List.mergeSort_perm (rows.map f) StatusRecord.isListedBefore
  refine ⟨rows.map f, sorted.map f, Selection.mapM_eq_ok hf, hsorted ▸ hperm, ?_,
    fun cancel hcancel page => ?_⟩
  · have hkeys : ((rows.map f).map fun x => x.key.adapter).Nodup := by
      rw [List.map_map, List.Nodup, List.pairwise_map]
      refine (h.distinct.keys.filter _).imp_of_mem fun {a b} ha hb hnot hsame => hnot ?_
      obtain ⟨htype, howner, hlive⟩ := StatusRow.isAbout_iff.mp (List.mem_filter.mp ha).2
      obtain ⟨htype', howner', hlive'⟩ := StatusRow.isAbout_iff.mp (List.mem_filter.mp hb).2
      refine ⟨hlive, hlive', htype.trans htype'.symm, howner.trans howner'.symm, ?_⟩
      rw [hadapter a ha, hadapter b hb]
      exact congrArg Cell.text hsame
    rw [hsorted]
    exact pairwise_mergeSort_of_keys StatusRecord.isListedBefore_trans
      StatusRecord.isListedBefore_total hkeys fun _ _ _ _ => StatusRecord.isBefore_of_isListedBefore
  · have hread : (page.slice sorted).mapM StatusRecord.ofRow = .ok ((page.slice sorted).map f) := by
      refine Selection.mapM_eq_ok fun r hr => hf r ?_
      exact List.mem_mergeSort.mp (List.mem_of_mem_drop (List.mem_of_mem_take hr))
    rw [PageRequest.map_slice] at hread
    have hstart := Cancellation.checkStart_of_ne hcancel
    simp only [Store.listStatuses, hstart, Page.of, bind, Except.bind, List.length_map]
    rw [hread]
    rfl

end Store.Consistent
end StatusBoard

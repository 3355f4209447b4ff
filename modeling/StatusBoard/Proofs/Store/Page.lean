import Mathlib.Tactic.NormNum
import StatusBoard.Proofs.Store.Selection
import StatusBoard.Store.Statuses
set_option autoImplicit false

/-!
# Store: where pages start

A page starts behind the items of the pages before it.  How many these are is computed with 64 bits
and a sign, which is enough for less than 2^63 of them.  Beyond that the number comes out negative,
and the page starts over with the first item.
-/

namespace StatusBoard

/-- A number of 32 bits is the same in 64 bits with a sign. -/
theorem toInt_toInt64 (n : UInt32) : n.toUInt64.toInt64.toInt = n.toNat := by
  have hlt := n.toNat_lt
  have hbits : n.toUInt64.toInt64.toInt = n.toUInt64.toBitVec.toInt := rfl
  rw [hbits, BitVec.toInt_eq_toNat_of_lt]
  · simp
  · simp only [UInt64.toNat_toBitVec, UInt32.toNat_toUInt64]
    omega

namespace PageRequest

variable {p : PageRequest}

/-- The number of items on the pages before. -/
def start (p : PageRequest) : Nat :=
  (p.page.toNat - 1) * p.pageSize.toNat

/-- The number of items before a page would fit in 64 bits without a sign. -/
theorem start_lt (p : PageRequest) : p.start < 2 ^ 64 :=
  calc (p.page.toNat - 1) * p.pageSize.toNat
      ≤ (2 ^ 32 - 2) * (2 ^ 32 - 1) := by
        have hpage := p.page.toNat_lt
        have hsize := p.pageSize.toNat_lt
        exact Nat.mul_le_mul (by omega) (by omega)
    _ < 2 ^ 64 := by norm_num

/-- Where a page starts is computed modulo 2^64. -/
theorem offset_toInt (p : PageRequest) : p.offset.toInt = (p.start : Int).bmod (2 ^ 64) := by
  have hone : (1 : UInt32).toNat = 1 := rfl
  have hmax : (max p.page 1).toNat = max p.page.toNat 1 := UInt32.toNat_max _ _
  have hbefore : (max p.page 1 - 1).toNat = p.page.toNat - 1 := by
    rw [UInt32.toNat_sub_of_le _ _ (UInt32.le_iff_toNat_le.mpr (by omega)), hmax, hone]
    omega
  rw [offset, Int64.toInt_mul, toInt_toInt64, toInt_toInt64, hbefore, ← Int.natCast_mul]
  rfl

theorem offset_eq_start (h : p.start < 2 ^ 63) : p.offset.toInt = p.start := by
  rw [offset_toInt]
  exact Int.bmod_eq_of_le (by omega) (by omega)

/-- Too many items are taken for fewer than none. -/
theorem offset_neg (h : 2 ^ 63 ≤ p.start) : p.offset.toInt = p.start - 2 ^ 64 := by
  have hlt := p.start_lt
  have hsame : (p.start : Int) % (2 ^ 64 : Nat) = p.start :=
    Int.emod_eq_of_lt (by omega) (by omega)
  rw [offset_toInt, Int.bmod_neg _ _ (by rw [hsame]; omega), hsame]
  norm_num

theorem skipped_eq_start (h : p.start < 2 ^ 63) : p.skipped = p.start := by
  rw [skipped, offset_eq_start h, Int.toNat_natCast]

theorem skipped_eq_zero (h : 2 ^ 63 ≤ p.start) : p.skipped = 0 := by
  have hlt := p.start_lt
  rw [skipped, offset_neg h]
  omega

/-! ## Listings -/

/-- The first page of the same size. -/
def first (p : PageRequest) : PageRequest :=
  { p with page := 1 }

theorem skipped_first (p : PageRequest) : p.first.skipped = 0 := by
  have hstart : p.first.start = 0 := by simp [start, first]
  rw [skipped_eq_start (by omega), hstart]

theorem slice_beyond {α : Type} {items : List α} (h : items.length ≤ p.skipped) :
    p.slice items = [] := by
  rw [slice, List.drop_eq_nil_of_le h, List.take_nil]

end PageRequest

namespace Selection

variable {α : Type} {read : ResourceRow → Except StoreError α} {plan : QueryPlan}
  {parts : List Predicate} {rows : List ResourceRow}

/-- If all rows that are selected are skipped, nothing is read. -/
theorem stream_beyond {p : ResourceRow → Bool} (h : ∀ r ∈ rows, plan.selects r parts = .ok (p r))
    {skipped : Nat} (hskipped : (rows.filter p).length ≤ skipped) (limit : Nat) :
    stream read plan parts skipped limit rows = .ok [] := by
  induction rows generalizing skipped with
  | nil => cases limit <;> simp [stream]
  | cons r rows ih =>
      have hrest := @ih fun other hother => h other (List.mem_cons_of_mem _ hother)
      have hfirst := h r List.mem_cons_self
      cases limit with
      | zero => simp [stream]
      | succ limit =>
          cases hp : p r with
          | false =>
              rw [List.filter_cons_of_neg (by simp [hp])] at hskipped
              simp [stream, hfirst, hp, hrest hskipped, bind, Except.bind]
          | true =>
              rw [List.filter_cons_of_pos hp, List.length_cons] at hskipped
              obtain ⟨k, rfl⟩ : ∃ k, skipped = k + 1 := ⟨skipped - 1, by omega⟩
              simp [stream, hfirst, hp, hrest (Nat.le_of_succ_le_succ hskipped), bind, Except.bind]

/-- A page beyond the rows that are selected is empty, whatever else the rows hold, if a query makes
sense of their labels and conditions. -/
theorem items_beyond {request : PageRequest} {total : Nat} {found : List α}
    (hsound : ∀ r ∈ rows, r.IsSound) (hcount : count parts rows = .ok total)
    (hitems : items read request parts rows = .ok found) (hbeyond : total ≤ request.skipped) :
    found = [] := by
  have hlisted : ∀ r ∈ rows, (QueryPlan.forListing parts).1.selects r parts =
      .ok (Predicate.allTrue r parts) := fun r hr =>
    QueryPlan.selects_forListing (hsound r hr) parts
  obtain ⟨counted, hcounted, htotal⟩ := bind_eq_ok_iff.mp hcount
  have hall := ofRows_eq (p := (Predicate.allTrue · parts)) fun r hr =>
    QueryPlan.selects_forCount (hsound r hr) parts
  cases hall.symm.trans (mapError_eq_ok_iff.mp hcounted)
  cases htotal
  unfold items at hitems
  rcases hplan : QueryPlan.forListing parts with ⟨plan, isOrdered⟩
  rw [hplan] at hitems hlisted
  cases isOrdered with
  | true =>
      have hsame : ((rows.mergeSort ResourceRow.isListedBefore).filter
          (Predicate.allTrue · parts)).length ≤ request.skipped :=
        ((List.mergeSort_perm rows _).filter _).length_eq ▸ hbeyond
      have hnothing : stream read plan parts request.skipped request.limit
          (rows.mergeSort ResourceRow.isListedBefore) = .ok [] :=
        stream_beyond (fun r hr => hlisted r (List.mem_mergeSort.mp hr)) hsame request.limit
      exact (Except.ok.inj (hnothing.symm.trans hitems)).symm
  | false =>
      obtain ⟨selected, hselected, hitems⟩ := bind_eq_ok_iff.mp hitems
      cases (ofRows_eq hlisted).symm.trans (mapError_eq_ok_iff.mp hselected)
      rw [PageRequest.slice_beyond (by rw [List.length_mergeSort]; exact hbeyond)] at hitems
      cases hitems
      rfl

/-- What a page shows goes by the number of items that are skipped, and by the size of the page. -/
theorem items_congr {p q : PageRequest} (hskipped : p.skipped = q.skipped)
    (hlimit : p.limit = q.limit) : items read p parts rows = items read q parts rows := by
  simp only [items, PageRequest.slice, hskipped, hlimit]

end Selection

namespace Store

variable {s : Store} {cancel : Cancellation} {p : PageRequest}

/-- A page beyond the statuses of a resource is empty. -/
theorem items_listStatuses_beyond {resource : ResourceRef} {found : Page StatusRecord}
    (h : s.listStatuses cancel resource p = .ok found) (hbeyond : found.total ≤ p.skipped) :
    found.items = [] := by
  obtain ⟨-, -, h⟩ := bind_eq_ok_iff.mp h
  obtain ⟨items, hitems, h⟩ := bind_eq_ok_iff.mp h
  cases h
  rw [PageRequest.slice_beyond hbeyond] at hitems
  cases hitems
  rfl

theorem items_listStatuses_congr {q : PageRequest} (hskipped : p.skipped = q.skipped)
    (hlimit : p.limit = q.limit) (resource : ResourceRef) :
    (s.listStatuses cancel resource p).map (·.items) =
      (s.listStatuses cancel resource q).map (·.items) := by
  simp only [listStatuses, Page.of, PageRequest.slice, hskipped, hlimit]
  cases cancel.checkStart with
  | error e => rfl
  | ok started =>
      simp only [bind, Except.bind]
      cases ((((s.statuses.filter (·.isAbout resource)).mergeSort fun a b =>
        Cell.precedes a.adapter b.adapter).drop q.skipped).take q.limit).mapM
          StatusRecord.ofRow <;> rfl

/-- A page beyond the resources that are found is empty. -/
theorem items_search_beyond {kind : String} {query : Option Query} {found : Page Resource}
    (hsound : ∀ r ∈ s.resources, r.IsSound) (h : s.search cancel kind query p = .ok found)
    (hbeyond : found.total ≤ p.skipped) : found.items = [] := by
  obtain ⟨-, -, hcount, hitems, -, -⟩ := search_eq_ok_iff.mp h
  exact Selection.items_beyond hsound hcount hitems hbeyond

theorem items_search_congr {q : PageRequest} (hskipped : p.skipped = q.skipped)
    (hlimit : p.limit = q.limit) (kind : String) (query : Option Query) :
    (s.search cancel kind query p).map (·.items) =
      (s.search cancel kind query q).map (·.items) := by
  unfold search
  rw [Selection.items_congr hskipped hlimit]
  simp only [bind, Except.bind]
  -- The two searches go through the same steps, up to what the page says of itself.
  cases cancel.checkStart with
  | error e => rfl
  | ok started =>
      cases (Query.prepare .count query).mapError StoreError.database with
      | error e => rfl
      | ok counts =>
          cases Selection.count (Query.predicates kind query) s.resources with
          | error e => rfl
          | ok total =>
              cases (Query.prepare .listing query).mapError StoreError.database with
              | error e => rfl
              | ok lists =>
                  cases Selection.items Resource.ofRow q (Query.predicates kind query)
                    s.resources <;> rfl

end Store

namespace PageRequest

variable {p : PageRequest}

/-- The page starts where it should.  If there are no items so far behind, it is empty: of
statuses always, of resources where a query makes sense of what the rows hold. -/
structure StartsRight (p : PageRequest) : Prop where
  offset : p.offset.toInt = p.start
  statuses : ∀ (s : Store) cancel resource found, s.listStatuses cancel resource p = .ok found →
    found.total ≤ p.start → found.items = []
  resources : ∀ (s : Store) cancel kind query found, (∀ r ∈ s.resources, r.IsSound) →
    s.search cancel kind query p = .ok found → found.total ≤ p.start → found.items = []

/-- The page starts before the first item, and shows what the first page shows. -/
structure StartsOver (p : PageRequest) : Prop where
  offset : p.offset.toInt < 0
  statuses : ∀ (s : Store) cancel resource,
    (s.listStatuses cancel resource p).map (·.items) =
      (s.listStatuses cancel resource p.first).map (·.items)
  resources : ∀ (s : Store) cancel kind query,
    (s.search cancel kind query p).map (·.items) =
      (s.search cancel kind query p.first).map (·.items)

theorem startsRight_of_lt (h : p.start < 2 ^ 63) : p.StartsRight where
  offset := offset_eq_start h
  statuses _ _ _ _ hlist hbeyond :=
    Store.items_listStatuses_beyond hlist ((skipped_eq_start h).symm ▸ hbeyond)
  resources _ _ _ _ _ hsound hsearch hbeyond :=
    Store.items_search_beyond hsound hsearch ((skipped_eq_start h).symm ▸ hbeyond)

theorem startsOver_of_le (h : 2 ^ 63 ≤ p.start) : p.StartsOver where
  offset := by
    have hlt := p.start_lt
    rw [offset_neg h]
    omega
  statuses _ _ resource :=
    Store.items_listStatuses_congr ((skipped_eq_zero h).trans p.skipped_first.symm) rfl resource
  resources _ _ kind query :=
    Store.items_search_congr ((skipped_eq_zero h).trans p.skipped_first.symm) rfl kind query

/-- A page starts where it should exactly if fewer than 2^63 items are before it. -/
theorem startsRight_iff : p.StartsRight ↔ p.start < 2 ^ 63 := by
  refine ⟨fun h => ?_, startsRight_of_lt⟩
  by_contra hfar
  have hover := startsOver_of_le (Nat.le_of_not_lt hfar)
  have hneg := hover.offset
  rw [h.offset] at hneg
  omega

end PageRequest
end StatusBoard

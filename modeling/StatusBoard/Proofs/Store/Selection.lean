import Mathlib.Tactic.Choose
import StatusBoard.Proofs.Query.Size
import StatusBoard.Proofs.Query.Truth
import StatusBoard.Proofs.Store.QueryPlan
import StatusBoard.Proofs.Store.Written
set_option autoImplicit false

/-!
# Selection: what a search shows

A search counts rows by one plan and lists them by another, in pieces or as a whole.  Where
every row holds what was written of a resource, none of that can be told from outside: a search
shows a page of the live resources of its kind that the filter is true of, oldest first, and
says how many there are.
-/

namespace StatusBoard

/-! ## Sorted lists -/

section Sorting

variable {α : Type} {le : α → α → Bool}

theorem takeWhile_of_split {p : α → Bool} {front back : List α} (hfront : ∀ a ∈ front, p a = true)
    (hback : ∀ a ∈ back, p a = false) : (front ++ back).takeWhile p = front := by
  rw [List.takeWhile_append_of_pos hfront]
  cases back with
  | nil => rw [List.takeWhile_nil, List.append_nil]
  | cons a back =>
      have hnot : ¬ p a = true := by simp [hback a List.mem_cons_self]
      rw [List.takeWhile_cons_of_neg hnot, List.append_nil]

/-- Where an item goes in a sorted list: behind all that it may not come before. -/
theorem mergeSort_cons_split (htrans : ∀ a b c, le a b = true → le b c = true → le a c = true)
    (htotal : ∀ a b, (le a b || le b a) = true) (a : α) (items : List α) :
    ∃ front back,
      (a :: items).mergeSort le = front ++ a :: back ∧ items.mergeSort le = front ++ back ∧
      (∀ b ∈ front, (!le a b) = true) ∧ ∀ b ∈ back, (!le a b) = false := by
  obtain ⟨front, back, hsorted, hrest, hfront⟩ := List.mergeSort_cons htrans htotal a items
  refine ⟨front, back, hsorted, hrest, hfront, ?_⟩
  have hpairwise := List.pairwise_mergeSort htrans htotal (a :: items)
  rw [hsorted, List.pairwise_append, List.pairwise_cons] at hpairwise
  intro b hb
  rw [hpairwise.2.1.1 b hb]
  rfl

/-- Sorting keeps the order of equals, so that it is no matter whether items are
left out before or after. -/
theorem filter_mergeSort (htrans : ∀ a b c, le a b = true → le b c = true → le a c = true)
    (htotal : ∀ a b, (le a b || le b a) = true) (p : α → Bool) (items : List α) :
    (items.mergeSort le).filter p = (items.filter p).mergeSort le := by
  induction items with
  | nil => simp
  | cons a items ih =>
      obtain ⟨front, back, hsorted, hrest, hfront, hback⟩ :=
        mergeSort_cons_split htrans htotal a items
      rw [hrest, List.filter_append] at ih
      cases hp : p a with
      | false =>
          have hnot : ¬ p a = true := by simp [hp]
          rw [hsorted, List.filter_append, List.filter_cons_of_neg hnot,
            List.filter_cons_of_neg hnot, ih]
      | true =>
          obtain ⟨front', back', hsorted', hrest', hfront', hback'⟩ :=
            mergeSort_cons_split htrans htotal a (items.filter p)
          rw [← ih] at hrest'
          -- Both lists are cut before the first item that `a` may come before.
          have hsame : front.filter p = front' := by
            have hcut := congrArg (List.takeWhile fun b => !le a b) hrest'
            rw [takeWhile_of_split hfront' hback', takeWhile_of_split] at hcut
            · exact hcut
            · intro b hb
              exact hfront b (List.mem_filter.mp hb).1
            · intro b hb
              exact hback b (List.mem_filter.mp hb).1
          rw [← hsame] at hrest'
          rw [hsorted, List.filter_append, List.filter_cons_of_pos hp,
            List.filter_cons_of_pos hp, hsorted', ← hsame, List.append_cancel_left hrest']

end Sorting

/-! ## Order of a listing -/

/-- A resource comes before another in a listing: by time of creation, then by identity,
both as they are written. -/
def Resource.isListedBefore (x y : Resource) : Bool :=
  x.createdTime.toStorageText < y.createdTime.toStorageText ||
  (x.createdTime.toStorageText = y.createdTime.toStorageText && x.id.toText ≤ y.id.toText)

namespace Resource

theorem isListedBefore_iff {x y : Resource} :
    x.isListedBefore y = true ↔ x.createdTime.toStorageText < y.createdTime.toStorageText ∨
      (x.createdTime.toStorageText = y.createdTime.toStorageText ∧ x.id.toText ≤ y.id.toText) := by
  simp only [isListedBefore, Bool.or_eq_true, Bool.and_eq_true, decide_eq_true_eq]

theorem isListedBefore_trans (x y z : Resource) (hxy : x.isListedBefore y = true)
    (hyz : y.isListedBefore z = true) : x.isListedBefore z = true := by
  rw [isListedBefore_iff] at hxy hyz ⊢
  obtain hxy | ⟨hxy, hxy'⟩ := hxy
  · obtain hyz | ⟨hyz, -⟩ := hyz
    · exact .inl (String.lt_trans hxy hyz)
    · exact .inl (hyz ▸ hxy)
  · obtain hyz | ⟨hyz, hyz'⟩ := hyz
    · exact .inl (hxy ▸ hyz)
    · exact .inr ⟨hxy.trans hyz, String.le_trans hxy' hyz'⟩

theorem isListedBefore_total (x y : Resource) :
    (x.isListedBefore y || y.isListedBefore x) = true := by
  rw [Bool.or_eq_true, isListedBefore_iff, isListedBefore_iff]
  by_cases hlt : x.createdTime.toStorageText < y.createdTime.toStorageText
  · exact .inl (.inl hlt)
  by_cases hgt : y.createdTime.toStorageText < x.createdTime.toStorageText
  · exact .inr (.inl hgt)
  have heq := String.le_antisymm (String.not_lt.mp hgt) (String.not_lt.mp hlt)
  obtain hle | hge := String.le_total x.id.toText y.id.toText
  · exact .inl (.inr ⟨heq, hle⟩)
  · exact .inr (.inr ⟨heq.symm, hge⟩)

end Resource

/-- Rows come in the order of what they hold. -/
theorem ResourceRow.Records.isListedBefore {a b : ResourceRow} {x y : Resource} (ha : a.Records x)
    (hb : b.Records y) : a.isListedBefore b = x.isListedBefore y := by
  rw [Bool.eq_iff_iff, Resource.isListedBefore_iff, ResourceRow.isListedBefore,
    ha.createdTime, hb.createdTime, ha.id, hb.id]
  simp only [Cell.precedes, Cell.order, compareOfLessAndEq]
  by_cases hlt : x.createdTime.toStorageText < y.createdTime.toStorageText
  · simp [hlt]
  · by_cases heq : x.createdTime.toStorageText = y.createdTime.toStorageText
    · by_cases hid : x.id.toText < y.id.toText
      · simp [heq, hid, String.not_lt.mp (String.lt_asymm hid)]
      · by_cases hsame : x.id.toText = y.id.toText
        · simp [heq, hsame]
        · have hnot : ¬ x.id.toText ≤ y.id.toText := by
            intro hle
            exact hsame (String.le_antisymm hle (String.not_lt.mp hid))
          simp [heq, hid, hsame, hnot]
    · simp [hlt, heq]

/-! ## Rows that are selected -/

namespace Selection

variable {plan : QueryPlan} {parts : List Predicate} {p : ResourceRow → Bool}
  {rows : List ResourceRow}

theorem ofRows_eq (h : ∀ r ∈ rows, plan.selects r parts = .ok (p r)) :
    ofRows plan parts rows = .ok (rows.filter p) := by
  induction rows with
  | nil => rfl
  | cons r rows ih =>
      have hrest := ih fun other hother => h other (List.mem_cons_of_mem _ hother)
      rw [ofRows, h r List.mem_cons_self, hrest, List.filter_cons]
      rfl

theorem stream_eq {read : ResourceRow → Except StoreError Resource} {f : ResourceRow → Resource}
    (h : ∀ r ∈ rows, plan.selects r parts = .ok (p r)) (hread : ∀ r ∈ rows, read r = .ok (f r))
    (skipped limit : Nat) :
    stream read plan parts skipped limit rows =
      .ok ((((rows.filter p).drop skipped).take limit).map f) := by
  induction rows generalizing skipped limit with
  | nil => cases limit <;> simp [stream]
  | cons r rows ih =>
      have hrest := ih (fun other hother => h other (List.mem_cons_of_mem _ hother))
        fun other hother => hread other (List.mem_cons_of_mem _ hother)
      have hfirst := h r List.mem_cons_self
      cases limit with
      | zero => simp [stream]
      | succ limit =>
          cases hp : p r with
          | false => simp [stream, hfirst, hp, hrest, bind, Except.bind]
          | true =>
              cases skipped with
              | zero =>
                  simp [stream, hfirst, hp, hrest, hread r List.mem_cons_self, bind, Except.bind,
                    pure, Except.pure]
              | succ skipped => simp [stream, hfirst, hp, hrest, bind, Except.bind]

theorem mapM_eq_ok {α β ε : Type} {read : α → Except ε β} {f : α → β} {items : List α}
    (h : ∀ item ∈ items, read item = .ok (f item)) : items.mapM read = .ok (items.map f) := by
  induction items with
  | nil => rfl
  | cons item items ih =>
      have hrest := ih fun other hother => h other (List.mem_cons_of_mem _ hother)
      rw [List.mapM_cons, h item List.mem_cons_self, hrest]
      rfl

section Records
variable {f : ResourceRow → Resource}

/-- Rows are sorted as the resources in them are. -/
theorem map_mergeSort_isListedBefore {items : List ResourceRow} (h : ∀ r ∈ items, r.Records (f r)) :
    (items.mergeSort ResourceRow.isListedBefore).map f =
      (items.map f).mergeSort Resource.isListedBefore := by
  apply List.map_mergeSort
  intro a ha b hb
  exact (h a ha).isListedBefore (h b hb)

/-- It is no matter whether rows are left out before they are sorted or after. -/
theorem filter_mergeSort_isListedBefore (h : ∀ r ∈ rows, r.Records (f r)) (p : ResourceRow → Bool) :
    (rows.mergeSort ResourceRow.isListedBefore).filter p =
      (rows.filter p).mergeSort ResourceRow.isListedBefore := by
  -- Rows of any content have no order, so that of the resources in these stands in for it.
  have horder : ∀ items : List ResourceRow, (∀ r ∈ items, r ∈ rows) →
      items.mergeSort ResourceRow.isListedBefore =
        items.mergeSort fun a b => (f a).isListedBefore (f b) := by
    intro items hitems
    have hmap := List.map_mergeSort (r := ResourceRow.isListedBefore)
      (s := fun a b => (f a).isListedBefore (f b)) (f := id) fun a ha b hb =>
        (h a (hitems a ha)).isListedBefore (h b (hitems b hb))
    rwa [List.map_id, List.map_id] at hmap
  rw [horder rows fun _ hr => hr, horder _ fun r hr => (List.mem_filter.mp hr).1]
  exact filter_mergeSort (fun a b c => Resource.isListedBefore_trans (f a) (f b) (f c))
    (fun a b => Resource.isListedBefore_total (f a) (f b)) p rows

/-- The count of a search, if every row holds what was written of a resource. -/
theorem count_eq (hrecords : ∀ r ∈ rows, r.Records (f r)) (parts : List Predicate) :
    count parts rows = .ok (rows.filter (Predicate.allTrue · parts)).length := by
  have hcounted := ofRows_eq (p := (Predicate.allTrue · parts)) (fun r hr =>
    QueryPlan.selects_forCount (hrecords r hr).isSound parts)
  rw [count, hcounted]
  rfl

/-- The page of a search, if every row holds what was written of a resource: however the rows are
gone through, it is that of the selected rows in order. -/
theorem items_eq (hrecords : ∀ r ∈ rows, r.Records (f r))
    (hread : ∀ r ∈ rows, Resource.ofRow r = .ok (f r)) (request : PageRequest)
    (parts : List Predicate) :
    items Resource.ofRow request parts rows = .ok (request.slice
      (((rows.filter (Predicate.allTrue · parts)).map f).mergeSort Resource.isListedBefore)) := by
  have hlisted : ∀ r ∈ rows, (QueryPlan.forListing parts).1.selects r parts =
      .ok (Predicate.allTrue r parts) := by
    intro r hr
    exact QueryPlan.selects_forListing (hrecords r hr).isSound parts
  have hselected : ∀ r ∈ rows.filter (Predicate.allTrue · parts), r ∈ rows := by
    intro r hr
    exact (List.mem_filter.mp hr).1
  have hsorted := map_mergeSort_isListedBefore fun r hr => hrecords r (hselected r hr)
  have hfilter := filter_mergeSort_isListedBefore hrecords (Predicate.allTrue · parts)
  unfold items
  rcases hplan : QueryPlan.forListing parts with ⟨plan, isOrdered⟩
  rw [hplan] at hlisted
  cases isOrdered with
  | true =>
      have hsortedListed : ∀ r ∈ rows.mergeSort ResourceRow.isListedBefore,
          plan.selects r parts = .ok (Predicate.allTrue r parts) := by
        intro r hr
        exact hlisted r (List.mem_mergeSort.mp hr)
      have hstream := stream_eq hsortedListed
        (fun r hr => hread r (List.mem_mergeSort.mp hr)) request.skipped request.limit
      rw [hfilter, List.map_take, List.map_drop, hsorted] at hstream
      simp only [hstream, PageRequest.slice]
  | false =>
      have hslice : ∀ r ∈ request.slice
          ((rows.filter (Predicate.allTrue · parts)).mergeSort ResourceRow.isListedBefore),
          Resource.ofRow r = .ok (f r) := fun r hr =>
        hread r (hselected r (List.mem_mergeSort.mp
          (List.mem_of_mem_drop (List.mem_of_mem_take hr))))
      have hmap := mapM_eq_ok hslice
      rw [PageRequest.slice, List.map_take, List.map_drop, hsorted] at hmap
      simp only [ofRows_eq hlisted, hmap, mapError_ok, bind, Except.bind, PageRequest.slice]

end Records

end Selection

/-! ## Rows of any content -/

namespace Selection

variable {α : Type} {read : ResourceRow → Except StoreError α} {plan : QueryPlan}
  {parts : List Predicate} {rows : List ResourceRow}

theorem mem_ofRows {selected : List ResourceRow} (h : ofRows plan parts rows = .ok selected) :
    ∀ r ∈ selected, r ∈ rows ∧ plan.selects r parts = .ok true := by
  induction rows generalizing selected with
  | nil =>
      cases h
      simp
  | cons row rows ih =>
      obtain ⟨isSelected, hrow, h⟩ := bind_eq_ok_iff.mp h
      obtain ⟨rest, hrest, h⟩ := bind_eq_ok_iff.mp h
      have hothers : ∀ r ∈ rest, r ∈ row :: rows ∧ plan.selects r parts = .ok true := by
        intro r hr
        exact (ih hrest r hr).imp_left (List.mem_cons_of_mem _)
      cases isSelected with
      | false =>
          cases h
          exact hothers
      | true =>
          cases h
          exact List.forall_mem_cons.mpr ⟨⟨List.mem_cons_self, hrow⟩, hothers⟩

theorem mem_stream {skipped limit : Nat} {items : List α}
    (h : stream read plan parts skipped limit rows = .ok items) :
    ∀ x ∈ items, ∃ r ∈ rows, plan.selects r parts = .ok true ∧ read r = .ok x := by
  induction rows generalizing skipped limit items with
  | nil =>
      cases limit <;> cases h <;> simp
  | cons row rows ih =>
      have hlater : ∀ {skipped limit : Nat} {items : List α},
          stream read plan parts skipped limit rows = .ok items →
          ∀ x ∈ items, ∃ r ∈ row :: rows, plan.selects r parts = .ok true ∧ read r = .ok x := by
        intro skipped limit items h x hx
        obtain ⟨r, hr, hselected⟩ := ih h x hx
        exact ⟨r, List.mem_cons_of_mem _ hr, hselected⟩
      cases limit with
      | zero =>
          cases h
          simp
      | succ limit =>
          simp only [stream] at h
          obtain ⟨isSelected, hrow, h⟩ := bind_eq_ok_iff.mp h
          cases isSelected with
          | false => exact hlater h
          | true =>
              cases skipped with
              | succ skipped => exact hlater h
              | zero =>
                  obtain ⟨first, hfirst, h⟩ := bind_eq_ok_iff.mp h
                  obtain ⟨rest, hrest, h⟩ := bind_eq_ok_iff.mp h
                  cases h
                  exact List.forall_mem_cons.mpr
                    ⟨⟨row, List.mem_cons_self, mapError_eq_ok_iff.mp hrow, hfirst⟩, hlater hrest⟩

theorem mem_mapM {α β ε : Type} {f : α → Except ε β} {items : List α} {found : List β}
    (h : items.mapM f = .ok found) : ∀ y ∈ found, ∃ x ∈ items, f x = .ok y := by
  induction items generalizing found with
  | nil =>
      cases h
      simp
  | cons item items ih =>
      rw [List.mapM_cons] at h
      obtain ⟨first, hfirst, h⟩ := bind_eq_ok_iff.mp h
      obtain ⟨rest, hrest, h⟩ := bind_eq_ok_iff.mp h
      cases h
      refine List.forall_mem_cons.mpr ⟨⟨item, List.mem_cons_self, hfirst⟩, ?_⟩
      intro y hy
      obtain ⟨x, hx, hread⟩ := ih hrest y hy
      exact ⟨x, List.mem_cons_of_mem _ hx, hread⟩

theorem mem_of_mapM {α β ε : Type} {f : α → Except ε β} {items : List α} {found : List β}
    (h : items.mapM f = .ok found) {x : α} (hx : x ∈ items) {y : β} (hread : f x = .ok y) :
    y ∈ found := by
  induction items generalizing found with
  | nil => cases hx
  | cons item items ih =>
      rw [List.mapM_cons] at h
      obtain ⟨first, hfirst, h⟩ := bind_eq_ok_iff.mp h
      obtain ⟨rest, hrest, h⟩ := bind_eq_ok_iff.mp h
      cases h
      rcases List.mem_cons.mp hx with rfl | hx
      · rw [Except.ok.inj (hfirst.symm.trans hread)]
        exact List.mem_cons_self
      · exact List.mem_cons_of_mem _ (ih hrest hx)

/-- Whatever rows hold, an item on a page is read from a row that the plan of the listing
selects. -/
theorem mem_items {request : PageRequest} {found : List α}
    (h : items read request parts rows = .ok found) :
    ∀ x ∈ found, ∃ r ∈ rows,
      (QueryPlan.forListing parts).1.selects r parts = .ok true ∧ read r = .ok x := by
  intro x hx
  unfold items at h
  rcases hplan : QueryPlan.forListing parts with ⟨plan, isOrdered⟩
  rw [hplan] at h
  cases isOrdered with
  | true =>
      obtain ⟨r, hr, hselected⟩ := mem_stream h x hx
      exact ⟨r, List.mem_mergeSort.mp hr, hselected⟩
  | false =>
      obtain ⟨selected, hselected, h⟩ := bind_eq_ok_iff.mp h
      obtain ⟨r, hr, hread⟩ := mem_mapM h x hx
      have hmem := List.mem_mergeSort.mp (List.mem_of_mem_drop (List.mem_of_mem_take hr))
      obtain ⟨hrow, hheld⟩ := mem_ofRows (mapError_eq_ok_iff.mp hselected) r hmem
      exact ⟨r, hrow, hheld, hread⟩

end Selection

/-- Rows have to be live, whatever a query asks. -/
theorem Query.live_mem_predicates (kind : String) (q : Option Query) :
    Predicate.live ∈ Query.predicates kind q := by
  unfold Query.predicates Predicate.pinned
  simp only [Predicate.pinBefore, Predicate.pin, ite_self, List.mem_cons, true_or, or_true]

/-! ## The two statements -/

/-- A statement is taken in if there is room for its query. -/
theorem Query.prepare_eq_ok_iff {statement : Statement} {query : Option Query} :
    prepare statement query = .ok () ↔ ∀ q ∈ query, ∃ height, q.measureIn statement = .ok height := by
  cases query with
  | none => simp [prepare]
  | some q => cases hmeasure : q.measureIn statement <;> simp [prepare, hmeasure]

/-- A query that there is room for is taken in with both statements. -/
theorem Query.prepare_of_measure {query : Option Query}
    (h : ∀ q ∈ query, ∃ height, q.measure = .ok height) (statement : Statement) :
    prepare statement query = .ok () := by
  refine prepare_eq_ok_iff.mpr fun q hq => ?_
  obtain ⟨height, hheight⟩ := h q hq
  exact ⟨height, measureIn_of_measure hheight statement⟩

/-- A search shows a page if it is not cancelled before it begins, both of its statements are taken in,
the rows that are found can be counted, and the page of them can be read. -/
theorem Store.search_eq_ok_iff {s : Store} {cancel : Cancellation} {kind : String}
    {query : Option Query} {request : PageRequest} {p : Page Resource} :
    s.search cancel kind query request = .ok p ↔
      cancel.checkStart = .ok () ∧ (∀ statement, Query.prepare statement query = .ok ()) ∧
      Selection.count (Query.predicates kind query) s.resources = .ok p.total ∧
      Selection.items Resource.ofRow request (Query.predicates kind query) s.resources = .ok p.items ∧
      p.page = request.page ∧ p.pageSize = request.pageSize := by
  unfold search
  simp only [bind_eq_ok_iff, mapError_eq_ok_iff]
  constructor
  · rintro ⟨⟨⟩, hstart, ⟨⟩, hcounted, total, htotal, ⟨⟩, hlisted, items, hitems, ⟨⟩⟩
    exact ⟨hstart, fun statement => by cases statement <;> assumption, htotal, hitems, rfl, rfl⟩
  · obtain ⟨items, page, pageSize, total⟩ := p
    rintro ⟨hstart, hprepare, htotal, hitems, rfl, rfl⟩
    exact ⟨(), hstart, (), hprepare .count, total, htotal, (), hprepare .listing, items, hitems, rfl⟩

/-- Whatever the table holds, a search shows live rows only. -/
theorem Store.isLive_of_mem_search {s : Store} {cancel : Cancellation} {kind : String}
    {query : Option Query} {request : PageRequest} {p : Page Resource}
    (h : s.search cancel kind query request = .ok p) :
    ∀ x ∈ p.items, ∃ r ∈ s.resources, r.isLive = true ∧ Resource.ofRow r = .ok x := by
  obtain ⟨-, -, -, hitems, -, -⟩ := search_eq_ok_iff.mp h
  intro x hx
  obtain ⟨r, hr, hselected, hread⟩ := Selection.mem_items hitems x hx
  have hlive := QueryPlan.holds_of_selects (QueryPlan.fits_forListing _) hselected
    (Query.live_mem_predicates kind query) (by simp)
  exact ⟨r, hr, Except.ok.inj hlive, hread⟩

/-! ## Searching -/

/-- What the rows of a table of written ones record. -/
theorem Store.IsWritten.exists_reading {s : Store} (h : s.IsWritten) :
    ∃ f : ResourceRow → Resource, ∀ r ∈ s.resources,
      r.Records (f r) ∧ Resource.ofRow r = .ok (f r) := by
  have hrow : ∀ r ∈ s.resources, ∃ x, r.Records x ∧ Resource.ofRow r = .ok x := by
    intro r hr
    obtain ⟨hwritten, x, hread⟩ := h r hr
    exact ⟨x, hwritten.records hread, hread⟩
  choose! f hf using hrow
  exact ⟨f, hf⟩

/-- The live resources of a kind can all be read. -/
theorem Store.IsWritten.exists_live {s : Store} (h : s.IsWritten) (kind : String) :
    ∃ live, (s.resources.filter fun r => r.isLive && r.kind = .text kind).mapM Resource.ofRow =
      .ok live := by
  obtain ⟨f, hf⟩ := h.exists_reading
  exact ⟨_, Selection.mapM_eq_ok fun r hr => (hf r (List.mem_of_mem_filter hr)).2⟩

/-- A search shows a page of the live resources of the kind that it asks for. -/
theorem Store.IsWritten.search_of_means {s : Store} (h : s.IsWritten) {cancel : Cancellation}
    (hcancel : cancel ≠ .before) {query : Option Query} {p : Resource → Bool}
    (hmeans : Query.Means query p) (hmeasure : ∀ q ∈ query, ∃ height, q.measure = .ok height)
    (kind : String) :
    ∃ live,
      (s.resources.filter fun r => r.isLive && r.kind = .text kind).mapM Resource.ofRow = .ok live ∧
      ∀ page : PageRequest, s.search cancel kind query page = .ok {
        items := page.slice ((live.filter p).mergeSort Resource.isListedBefore)
        page := page.page
        pageSize := page.pageSize
        total := (live.filter p).length } := by
  obtain ⟨f, hf⟩ := h.exists_reading
  have hrecords : ∀ r ∈ s.resources, r.Records (f r) := by
    intro r hr
    exact (hf r hr).1
  have hread : ∀ r ∈ s.resources, Resource.ofRow r = .ok (f r) := by
    intro r hr
    exact (hf r hr).2
  let isOfKind (r : ResourceRow) : Bool := r.isLive && r.kind = .text kind
  have hselected : s.resources.filter (Predicate.allTrue · (Query.predicates kind query)) =
      (s.resources.filter isOfKind).filter (p ∘ f) := by
    rw [List.filter_filter]
    apply List.filter_congr
    intro r hr
    rw [hmeans.allTrue (hrecords r hr), Bool.and_comm]
    simp [isOfKind, (hrecords r hr).kind]
  have hshown : (s.resources.filter (Predicate.allTrue · (Query.predicates kind query))).map f =
      ((s.resources.filter isOfKind).map f).filter p := by
    rw [hselected, List.filter_map]
  refine ⟨(s.resources.filter isOfKind).map f, ?_, fun page => ?_⟩
  · exact Selection.mapM_eq_ok fun r hr => hread r (List.mem_filter.mp hr).1
  · have hcount := Selection.count_eq hrecords (Query.predicates kind query)
    have hitems := Selection.items_eq hrecords hread page (Query.predicates kind query)
    rw [← List.length_map (f := f), hshown] at hcount
    rw [hshown] at hitems
    exact search_eq_ok_iff.mpr ⟨Cancellation.checkStart_of_ne hcancel,
      Query.prepare_of_measure hmeasure, hcount, hitems, rfl, rfl⟩

/-- A search with a filter shows a page of the live resources of the kind that
the filter is true of. -/
theorem Store.IsWritten.search_eq {s : Store} (h : s.IsWritten) {cancel : Cancellation}
    (hcancel : cancel ≠ .before) {e : Filter.Expr} {q : Query}
    (hquery : Query.ofExpr e = .ok q) {height : Nat}
    (hmeasure : q.measure = .ok height) (kind : String) (page : PageRequest) :
    ∃ live,
      (s.resources.filter fun r => r.isLive && r.kind = .text kind).mapM Resource.ofRow = .ok live ∧
      s.search cancel kind (some q) page = .ok {
        items := page.slice ((live.filter e.isTrueOf).mergeSort Resource.isListedBefore)
        page := page.page
        pageSize := page.pageSize
        total := (live.filter e.isTrueOf).length } := by
  have hmeasured : ∀ q' ∈ some q, ∃ height, q'.measure = .ok height := by
    rintro _ ⟨⟩
    exact ⟨height, hmeasure⟩
  obtain ⟨live, hlive, hsearch⟩ :=
    h.search_of_means hcancel (.filter hquery) hmeasured kind
  exact ⟨live, hlive, hsearch page⟩

end StatusBoard

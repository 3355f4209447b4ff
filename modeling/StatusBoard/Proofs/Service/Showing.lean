import StatusBoard.Proofs.Service.Blame
import StatusBoard.Proofs.Store.Partition
set_option autoImplicit false

/-!
# Service: what reads show

A status is read under its key, and it is read as one of those that adapters have of a resource; a
resource is read by its identity, and as one of its kind.  These are different ways to the same row,
and where the tables are as the board left them, all of them show what the row says.
-/

namespace StatusBoard

/-! ## Items by their keys -/

/-- Where keys are not repeated, an item is the only one with its key. -/
theorem filter_eq_singleton_of_keys {α κ : Type} [DecidableEq κ] {key : α → κ} {items : List α}
    (hkeys : (items.map key).Nodup) {a : α} (ha : a ∈ items) :
    items.filter (fun x => key x = key a) = [a] := by
  induction items with
  | nil => cases ha
  | cons x items ih =>
      rw [List.map_cons, List.nodup_cons] at hkeys
      rcases List.mem_cons.mp ha with rfl | ha
      · have hnone : items.filter (fun x => key x = key a) = [] := by
          rw [List.filter_eq_nil_iff]
          intro y hy hsame
          exact hkeys.1 (of_decide_eq_true hsame ▸ List.mem_map_of_mem hy)
        rw [List.filter_cons_of_pos (by simp), hnone]
      · have hdiffer : key x ≠ key a := by
          intro hsame
          exact hkeys.1 (hsame ▸ List.mem_map_of_mem ha)
        rw [List.filter_cons_of_neg (by simpa using hdiffer), ih hkeys.2 ha]

/-- Statuses that stand in byte order of their adapters have keys of their own. -/
theorem StatusRecord.nodup_keys {records : List StatusRecord}
    (h : records.Pairwise StatusRecord.IsBefore) : (records.map (·.key)).Nodup := by
  refine List.pairwise_map.mpr (h.imp fun {x y} hbefore hsame => ?_)
  rw [IsBefore, hsame, ← Cell.order_text, Cell.order, compareOfLessAndEq,
    if_neg (String.lt_irrefl _), if_pos rfl] at hbefore
  cases hbefore

/-! ## Reads that are not cancelled -/

namespace Store

variable {s : Store} {cancel : Cancellation}

theorem getStatus_of_found (hcancel : cancel ≠ .before) {key : StatusKey} {row : StatusRow}
    (hfind : s.findStatus? key = some row) {record : StatusRecord}
    (hread : StatusRecord.ofRow row = .ok record) : s.getStatus cancel key = .ok (some record) := by
  simp [getStatus, Cancellation.checkStart_of_ne hcancel, hfind, hread, bind, Except.bind, pure,
    Except.pure]

theorem getResource_of_found (hcancel : cancel ≠ .before) {resource : ResourceRef}
    {row : ResourceRow} (hfind : s.findResource? resource = some row) {x : Resource}
    (hread : Resource.ofRow row = .ok x) : s.getResource cancel resource = .ok (some x) :=
  (getResource_eq_never hcancel).trans (getResource_never_eq_ok_iff.mpr ⟨row, hfind, hread⟩)

/-- A search does not depend on a cancellation that comes too late for it. -/
theorem search_eq_never (hcancel : cancel ≠ .before) (kind : String) (query : Option Query)
    (page : PageRequest) : s.search cancel kind query page = s.search .never kind query page := by
  cases cancel with
  | before => exact absurd rfl hcancel
  | never | underway => rfl

end Store

/-! ## Statuses -/

namespace Board

/-- The status is shown by all reads that nobody cancels: to those who ask for its key, and, as the
one of its key, in the list of what adapters say about its resource, of which callers get pages. -/
structure ShowsStatus (b : Board) (s : Store) (status : AdapterStatus) : Prop where
  asked : ∀ c : Call, c.request = .getStatus status.key → c.cancel ≠ .before →
    b.answer s c = ⟨s, .ok (.status status)⟩
  listed : ∃ all : List AdapterStatus, all.filter (·.key = status.key) = [status] ∧
    ∀ (c : Call) (page pageSize : Option UInt32),
      c.request = .listStatuses status.key.owner page pageSize → c.cancel ≠ .before →
      b.answer s c = ⟨s, .ok (.statuses {
        items := (b.paging.resolve page pageSize).slice all
        page := (b.paging.resolve page pageSize).page
        pageSize := (b.paging.resolve page pageSize).pageSize
        total := all.length })⟩

/-- The resource is shown by all reads that nobody cancels: to those who ask for it, and, as the one
of its identity, in the list of all of its kind, of which callers get pages. -/
structure ShowsResource (b : Board) (s : Store) (x : Resource) : Prop where
  asked : ∀ c : Call, c.request = .get ⟨x.kind, x.id.toText⟩ → c.cancel ≠ .before →
    b.answer s c = ⟨s, .ok (.resource x)⟩
  listed : ∃ all : List Resource, all.filter (·.id = x.id) = [x] ∧
    ∀ (c : Call) (filter : String) (page pageSize : Option UInt32),
      c.request = .search x.kind filter page pageSize → Query.ofText filter = .ok none →
      c.cancel ≠ .before →
      b.answer s c = ⟨s, .ok (.resources {
        items := (b.paging.resolve page pageSize).slice all
        page := (b.paging.resolve page pageSize).page
        pageSize := (b.paging.resolve page pageSize).pageSize
        total := all.length })⟩

end Board

namespace Store.IsIntact

variable {b : Board} {s : Store} {spec : KindSpec}

/-- Records of a resource are statuses of the same keys. -/
theorem exists_statuses (h : s.IsIntact) {resource : ResourceRef} {records : List StatusRecord}
    (hrecords : (s.statuses.filter (·.isAbout resource)).mapM StatusRecord.ofRow = .ok records) :
    ∃ f : StatusRecord → AdapterStatus,
      ∀ record ∈ records, record.toStatus = .ok (f record) ∧ (f record).key = record.key := by
  have hstatus : ∀ record ∈ records, ∃ status,
      record.toStatus = .ok status ∧ status.key = record.key := by
    intro record hrecord
    obtain ⟨row, hrow, hread⟩ := Selection.mem_mapM hrecords record hrecord
    obtain ⟨status, hstatus⟩ := h.toStatus (List.mem_of_mem_filter hrow) hread
    obtain ⟨d, hparse, rfl⟩ := StatusRecord.toStatus_eq_ok_iff.mp hstatus
    exact ⟨_, hstatus, rfl⟩
  choose! f hf using hstatus
  exact ⟨f, hf⟩

/-- Callers get pages of one list of what adapters say about a resource that is there. -/
theorem answer_listStatuses (h : s.IsIntact) {resource : ResourceRef}
    (hspec : b.resolve resource.kind = .ok spec) (hshows : s.Shows resource) :
    ∃ records all, (s.statuses.filter (·.isAbout resource)).mapM StatusRecord.ofRow = .ok records ∧
      (all.map (·.key)).Nodup ∧
      (∀ record ∈ records, ∃ status ∈ all, record.toStatus = .ok status) ∧
      ∀ (c : Call) (page pageSize : Option UInt32),
        c.request = .listStatuses resource page pageSize → c.cancel ≠ .before →
        b.answer s c = ⟨s, .ok (.statuses {
          items := (b.paging.resolve page pageSize).slice all
          page := (b.paging.resolve page pageSize).page
          pageSize := (b.paging.resolve page pageSize).pageSize
          total := all.length })⟩ := by
  obtain ⟨written, hconsistent⟩ := h.consistent
  obtain ⟨records, all, hrecords, hperm, hsorted, hlist⟩ := hconsistent.listStatuses_eq resource
  obtain ⟨f, hf⟩ := h.exists_statuses hrecords
  have hall : ∀ record ∈ all, record.toStatus = .ok (f record) ∧ (f record).key = record.key :=
    fun record hrecord => hf record (hperm.mem_iff.mp hrecord)
  refine ⟨records, all.map f, hrecords, ?_, fun record hrecord => ?_, ?_⟩
  · have hkeys : (all.map f).map (·.key) = all.map (·.key) := by
      rw [List.map_map]
      exact List.map_congr_left fun record hrecord => (hall record hrecord).2
    rw [hkeys]
    exact StatusRecord.nodup_keys hsorted
  · exact ⟨f record, List.mem_map_of_mem (hperm.mem_iff.mpr hrecord), (hf record hrecord).1⟩
  · intro c page pageSize hrequest hcancel
    obtain ⟨row, hrow⟩ := Option.isSome_iff_exists.mp (isSome_findResource?_iff.mpr hshows)
    obtain ⟨x, hfound⟩ := h.getResource hrow
    have hget : s.getResource c.circumstances.cancel resource = .ok (some x) :=
      (getResource_eq_never hcancel).trans hfound
    have hstored : s.listStatuses c.circumstances.cancel resource _ = _ :=
      hlist c.cancel hcancel (b.paging.resolve page pageSize)
    have hread : ((b.paging.resolve page pageSize).slice all).mapM Board.readStatus =
        .ok (((b.paging.resolve page pageSize).slice all).map f) := by
      refine Selection.mapM_eq_ok fun record hrecord => ?_
      have hmem := List.mem_of_mem_drop (List.mem_of_mem_take hrecord)
      rw [Board.readStatus, (hall record hmem).1, mapError_ok]
    rw [PageRequest.map_slice] at hread
    simp only [Board.answer, hrequest, Board.handle, Board.listStatuses, hspec, hget, hstored,
      Page.mapM, hread, mapError_ok, bind, Except.bind, Option.isNone_some, List.length_map]
    rfl

/-- What the row of a key says is shown. -/
theorem showsStatus (h : s.IsIntact) {key : StatusKey}
    (hspec : b.resolve key.resourceType = .ok spec) (hshows : s.Shows key.owner) {row : StatusRow}
    (hfind : s.findStatus? key = some row) {record : StatusRecord}
    (hread : StatusRecord.ofRow row = .ok record) {status : AdapterStatus}
    (hstatus : record.toStatus = .ok status) : status.key = key ∧ b.ShowsStatus s status := by
  have hof := findStatus?_isOf hfind
  have hcells := StatusRecord.says_of_ofRow hread
  have hkey : status.key = key := by
    obtain ⟨-, -, rfl⟩ := StatusRecord.toStatus_eq_ok_iff.mp hstatus
    exact StatusRow.HasKey.inj ⟨hcells.resourceType, hcells.resourceId, hcells.adapter⟩
      (StatusRow.isOf_iff.mp hof).1
  subst hkey
  refine ⟨rfl, fun c hrequest hcancel => ?_, ?_⟩
  · have hget : s.getStatus c.circumstances.cancel status.key = .ok (some record) :=
      getStatus_of_found hcancel hfind hread
    simp only [Board.answer, hrequest, Board.handle, Board.getStatus, hspec, hget, mapError_ok, bind,
      Except.bind, Board.readStatus, hstatus]
    rfl
  · obtain ⟨records, all, hrecords, hkeys, hall, hanswer⟩ := h.answer_listStatuses hspec hshows
    have hrow := List.mem_of_find?_eq_some hfind
    have habout := (StatusRow.isAbout_iff_owner hof status.key.owner).mpr rfl
    obtain ⟨status', hmem, hstatus'⟩ := hall record
      (Selection.mem_of_mapM hrecords (List.mem_filter.mpr ⟨hrow, habout⟩) hread)
    cases hstatus.symm.trans hstatus'
    exact ⟨all, filter_eq_singleton_of_keys hkeys hmem, hanswer⟩

/-! ## Resources -/

/-- What the row of a resource says is shown. -/
theorem showsResource (h : s.IsIntact) {x : Resource} (hspec : b.resolve x.kind = .ok spec)
    {row : ResourceRow} (hfind : s.findResource? ⟨x.kind, x.id.toText⟩ = some row)
    (hread : Resource.ofRow row = .ok x) : b.ShowsResource s x where
  asked := by
    intro c hrequest hcancel
    have hget : s.getResource c.circumstances.cancel ⟨x.kind, x.id.toText⟩ = .ok (some x) :=
      getResource_of_found hcancel hfind hread
    simp only [Board.answer, hrequest, Board.handle, Board.get, hspec, hget, mapError_ok, bind,
      Except.bind]
    rfl
  listed := by
    obtain ⟨written, hconsistent⟩ := h.consistent
    have hnever : Cancellation.never ≠ .before := by decide
    obtain ⟨live, hlive, hsearch⟩ :=
      h.written.search_of_means hnever .nothing (by simp) x.kind
    rw [List.filter_true] at hsearch
    have hperm := List.mergeSort_perm live Resource.isListedBefore
    have hkeys : (live.map (·.id)).Nodup := by
      have htexts := h.written.nodup_ids hconsistent.resourceIds hlive
      rw [← Function.comp_def, ← List.map_map] at htexts
      exact htexts.of_map _
    have hmem : x ∈ live := by
      refine Selection.mem_of_mapM hlive (List.mem_filter.mpr ⟨?_, ?_⟩) hread
      · exact List.mem_of_find?_eq_some hfind
      · obtain ⟨hkind, -, hrow⟩ := ResourceRow.isOf_iff.mp (findResource?_isOf hfind)
        simp [hkind, hrow]
    refine ⟨live.mergeSort Resource.isListedBefore,
      filter_eq_singleton_of_keys ((hperm.map _).nodup_iff.mpr hkeys) (hperm.mem_iff.mpr hmem),
      fun c filter page pageSize hrequest hquery hcancel => ?_⟩
    rw [Board.answer_search hspec hquery hrequest, search_eq_never hcancel, hsearch, hperm.length_eq]
    rfl

end Store.IsIntact
end StatusBoard

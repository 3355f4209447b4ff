import StatusBoard.Proofs.Service.Decision
import StatusBoard.Proofs.Store.Change
import StatusBoard.Proofs.Store.Selection
set_option autoImplicit false

/-!
# Service: what is deleted is gone for good

A deletion takes away a resource and all that adapters said about it.  Nothing that is done later,
through the board or behind it, brings any of it back: the resource is not found again, and its rows
stay as the deletion left them.  Only its name is free for another resource.
-/

namespace StatusBoard

/-! ## Operations are made of changes -/

theorem Board.changes_answer (b : Board) (c : Call) (s : Store) :
    Store.Changes s (b.answer s c).store := by
  have hends := b.ends_answer c s
  generalize b.answer s c = reply at hends
  cases hends with
  | failed e => exact .refl
  | discarded reason => exact .refl
  | read response hread => exact .refl
  | created hrequest hvalid hfree hread => exact .single (.create rfl hfree)
  | deleted hrequest hlive => exact .single (.delete _ _)
  | conditioned hrequest hnodup hfind htext hread => exact .single (.condition _ _ _)
  | stored hrequest howner hwrites hfind hread hstatus =>
      exact .single (hwrites.change (Store.isSome_findResource?_iff.mp howner))
  | unreadable hrequest hspec hvalid hcancel howner hwrites hfind hread hunreadable =>
      exact .single (hwrites.change (Store.isSome_findResource?_iff.mp howner))

theorem Store.changes_upsertStatus (s : Store) (cancel : Cancellation) {key : StatusKey} (id : Uuid)
    (planner : Planner) {contention : Nat → Contention} (hcontests : Contests contention key) :
    Changes s (s.upsertStatus cancel key id planner contention).store := by
  obtain ⟨e, hanswer⟩ | hanswer | ⟨draft, inserted, record, hanswer, howner, -,
      ⟨base, hjoined, hwrites⟩, -⟩ := s.upsertStatus_cases cancel id planner hcontests
  · rw [hanswer]
  · rw [hanswer]
  · rw [hanswer]
    obtain ⟨hbase, hshows⟩ :=
      hjoined.changes hcontests (isSome_findResource?_iff.mp howner)
    exact hbase.tail (hwrites.change hshows)

/-- Whatever an operation does is made of changes. -/
theorem Operation.changes (b : Board) {s : Store} (op : Operation) (hfair : op.IsFair s) :
    Store.Changes s (op.run b s) := by
  cases op with
  | create cancel id kind new now =>
      obtain ⟨e, hanswer⟩ | ⟨created, hanswer, hfree, -⟩ :=
        s.createResource_cases cancel id kind new now
      · rw [run, hanswer]
      · rw [run, hanswer]
        exact .single (.create rfl hfree)
  | delete cancel resource now =>
      obtain ⟨e, hanswer⟩ | ⟨hanswer, -⟩ := s.deleteResource_cases cancel resource now
      · rw [run, hanswer]
      · rw [run, hanswer]
        exact .single (.delete resource now)
  | updateConditions cancel resource now replace =>
      obtain ⟨e, hanswer⟩ | ⟨row, raw, updated, hanswer, -⟩ :=
        s.updateConditions_cases cancel resource now replace
      · rw [run, hanswer]
      · rw [run, hanswer]
        exact .single (.condition resource _ now)
  | upsert cancel key id planner contention =>
      exact s.changes_upsertStatus cancel id planner fun attempt reason r hlost =>
        (hfair attempt reason r hlost).1
  | request call => exact b.changes_answer call s

namespace Board

/-- The stores that operations lead to from a store. -/
inductive LeadsTo (b : Board) (s : Store) : Store → Prop where
  | start : LeadsTo b s s
  | step {t : Store} (op : Operation) (h : LeadsTo b s t) (hfair : op.IsFair t) :
      LeadsTo b s (op.run b t)

theorem LeadsTo.changes {b : Board} {s t : Store} (h : b.LeadsTo s t) : Store.Changes s t := by
  induction h with
  | start => exact .refl
  | step op _ hfair ih => exact ih.trans (op.changes b hfair)

/-- What is led to from a store that can be reached can be reached. -/
theorem Reaches.leadsTo {b : Board} {s t : Store} {written : List StatusKey}
    (h : b.Reaches s written) (hleads : b.LeadsTo s t) : ∃ later, b.Reaches t later := by
  induction hleads with
  | start => exact ⟨written, h⟩
  | step op _ hfair ih =>
      obtain ⟨later, hlater⟩ := ih
      exact ⟨_, hlater.step op hfair⟩

theorem Reaches.isNamed {b : Board} {s : Store} {written : List StatusKey}
    (h : b.Reaches s written) : s.IsNamed := by
  induction h with
  | start =>
      intro r hr
      cases hr
  | step op _ hfair ih => exact ih.changes (op.changes b hfair)

end Board

/-! ## Asking for what is lost -/

/-- A request about a resource with which nothing else is wrong, and what it misses if the resource
is not there. -/
inductive Request.AsksFor (resource : ResourceRef) : Request → Subject → Prop where
  | get : AsksFor resource (.get resource) (.resource resource)
  | delete : AsksFor resource (.delete resource) (.resource resource)
  | setConditions (generation : Int64) {conditions : List ConditionInput}
      (checked : checkResourceConditions conditions = .ok ())
      (distinct : (conditions.map (·.type)).Nodup) :
      AsksFor resource (.setConditions resource generation conditions) (.resource resource)
  | report {r : Report} (valid : r.validate = .ok ()) :
      AsksFor resource (.report resource r) (.resource resource)
  | getStatus (adapter : String) :
      AsksFor resource (.getStatus (.of resource adapter)) (.status (.of resource adapter))
  | listStatuses (page pageSize : Option UInt32) :
      AsksFor resource (.listStatuses resource page pageSize) (.resource resource)

theorem Request.AsksFor.cases {resource : ResourceRef} {request : Request} {subject : Subject}
    (h : request.AsksFor resource subject) :
    subject = .resource resource ∨ ∃ adapter,
      request = .getStatus (.of resource adapter) ∧ subject = .status (.of resource adapter) := by
  cases h with
  | getStatus adapter => exact .inr ⟨adapter, rfl, rfl⟩
  | get | delete | setConditions _ _ _ | report _ | listStatuses _ _ => exact .inl rfl

namespace Store

theorem findResource?_eq_none_iff {s : Store} {resource : ResourceRef} :
    s.findResource? resource = none ↔ ¬ s.Shows resource := by
  rw [← isSome_findResource?_iff, Option.not_isSome_iff_eq_none]

/-- No adapter has a status of a resource that nothing is said about. -/
theorem findStatus?_of_silent {s : Store} {resource : ResourceRef}
    (h : ∀ r ∈ s.statuses, r.isAbout resource = false) (adapter : String) :
    s.findStatus? (.of resource adapter) = none := by
  rw [findStatus?_eq_none_iff]
  rintro ⟨r, hr, hof⟩
  have habout := (StatusRow.isAbout_iff_owner hof resource).mpr rfl
  rw [h r hr] at habout
  cases habout

/-- There is nothing to list of a resource that nothing is said about. -/
theorem listStatuses_of_silent {s : Store} {resource : ResourceRef} {cancel : Cancellation}
    (hcancel : cancel ≠ .before) (h : ∀ r ∈ s.statuses, r.isAbout resource = false)
    (page : PageRequest) :
    s.listStatuses cancel resource page =
      .ok { items := [], page := page.page, pageSize := page.pageSize, total := 0 } := by
  have hnone : s.statuses.filter (·.isAbout resource) = [] := by
    simpa only [List.filter_eq_nil_iff, Bool.not_eq_true] using h
  simp [listStatuses, Cancellation.checkStart_of_ne hcancel, hnone, Page.of, PageRequest.slice,
    bind, Except.bind, pure, Except.pure]

end Store

namespace Board

variable {b : Board} {s : Store} {c : Call} {resource : ResourceRef} {spec : KindSpec}

theorem answer_getStatus_of_silent (hspec : b.resolve resource.kind = .ok spec)
    (hsilent : ∀ r ∈ s.statuses, r.isAbout resource = false) (hcancel : c.cancel ≠ .before)
    {adapter : String} (hrequest : c.request = .getStatus (.of resource adapter)) :
    b.answer s c = ⟨s, .error (.notFound (.status (.of resource adapter)))⟩ := by
  have hstatus : s.getStatus c.circumstances.cancel (.of resource adapter) = .ok none :=
    Store.getStatus_of_absent hcancel (Store.findStatus?_of_silent hsilent adapter)
  have hkind : b.resolve (StatusKey.of resource adapter).resourceType = .ok spec := hspec
  unfold answer
  rw [hrequest]
  simp only [handle, getStatus, hkind, hstatus]
  rfl

/-- Whoever asks for a resource that is not there is told so, and nothing is changed. -/
theorem answer_of_hidden (hspec : b.resolve resource.kind = .ok spec)
    (hmissing : s.findResource? resource = none) (hcancel : c.cancel ≠ .before)
    (hasks : c.request.AsksFor resource (.resource resource)) :
    b.answer s c = ⟨s, .error (.notFound (.resource resource))⟩ := by
  have hget : s.getResource c.circumstances.cancel resource = .ok none :=
    Store.getResource_of_missing hcancel hmissing
  generalize hrequest : c.request = request at hasks
  cases hasks with
  | get =>
      unfold answer
      rw [hrequest]
      simp only [handle, get, hspec, hget]
      rfl
  | delete =>
      have hdelete : s.deleteResource c.circumstances.cancel resource c.circumstances.now = _ :=
        Store.deleteResource_of_missing hcancel hmissing c.now
      unfold answer
      rw [hrequest]
      simp only [handle, delete, hspec, hdelete]
      rfl
  | @setConditions generation conditions checked distinct =>
      have hincoming : b.incomingConditions c.circumstances resource generation conditions =
          .ok (.sent conditions generation c.now) := by
        simp only [incomingConditions, hspec, checked, Document.ofInputs_of_nodup distinct,
          mapError_ok]
        rfl
      unfold answer
      rw [hrequest]
      simp only [handle, setConditions, hincoming]
      rw [c.circumstances_cancel, Store.updateConditions_of_missing hcancel hmissing]
      rfl
  | report valid => exact answer_of_missing hrequest hspec valid hcancel hmissing
  | listStatuses page pageSize =>
      unfold answer
      rw [hrequest]
      simp only [handle, listStatuses, hspec, hget]
      rfl

/-- Whoever asks for what is lost is told that it is not there, and nothing is changed. -/
theorem answer_of_lost (hspec : b.resolve resource.kind = .ok spec) (hlost : s.Lost resource)
    (hcancel : c.cancel ≠ .before) {subject : Subject}
    (hasks : c.request.AsksFor resource subject) :
    b.answer s c = ⟨s, .error (.notFound subject)⟩ := by
  obtain rfl | ⟨adapter, hrequest, rfl⟩ := hasks.cases
  · exact answer_of_hidden hspec (Store.findResource?_eq_none_iff.mpr hlost.hidden) hcancel hasks
  · exact answer_getStatus_of_silent hspec hlost.silent hcancel hrequest

theorem map_eq_ok_iff {ε α β : Type} {x : Except ε α} {f : α → β} {y : β} :
    x.map f = .ok y ↔ ∃ a, x = .ok a ∧ f a = y := by
  cases x <;> simp [Except.map]

theorem search_eq_ok {kind filter : String} {page pageSize : Option UInt32} {p : Page Resource}
    {m : Circumstances} (h : b.search m s kind filter page pageSize = .ok p) :
    ∃ query, Query.ofText filter = .ok query ∧
      s.search m.cancel kind query (b.paging.resolve page pageSize) = .ok p := by
  unfold search at h
  obtain ⟨-, -, h⟩ := bind_eq_ok_iff.mp h
  obtain ⟨query, hquery, h⟩ := bind_eq_ok_iff.mp h
  exact ⟨query, mapError_eq_ok_iff.mp hquery, mapError_eq_ok_iff.mp h⟩

/-- Resources are shown by a search only. -/
theorem search_of_shown {p : Page Resource} (h : (b.answer s c).result = .ok (.resources p)) :
    ∃ kind query page, s.search c.cancel kind query page = .ok p := by
  unfold answer at h
  cases hrequest : c.request with
  | search kind filter page pageSize =>
      rw [hrequest] at h
      obtain ⟨found, hfound, hp⟩ := map_eq_ok_iff.mp h
      cases hp
      obtain ⟨query, -, hsearch⟩ := search_eq_ok hfound
      exact ⟨kind, query, _, hsearch⟩
  | create _ _ | get _ | delete _ | setConditions _ _ _ | report _ _ | getStatus _
  | listStatuses _ _ _ =>
      rw [hrequest] at h
      obtain ⟨found, -, hp⟩ := map_eq_ok_iff.mp h
      cases hp

end Board

/-! ## A name is used again -/

/-- A live resource of a kind has a name. -/
def Store.HasName (s : Store) (kind name : String) : Prop :=
  ∃ r ∈ s.resources, r.isLive = true ∧ r.kind = .text kind ∧ r.name = .text name

instance (s : Store) (kind name : String) : Decidable (s.HasName kind name) :=
  inferInstanceAs (Decidable (∃ r ∈ s.resources, _))

theorem Store.not_isTaken_toRow_iff {s : Store} {new : NewResource} {id : Uuid} {kind : String}
    {now : Instant} : s.isTaken (new.toRow id kind now) = false ↔
      (∀ r ∈ s.resources, r.id ≠ .text id.toText) ∧ ¬ s.HasName kind new.name := by
  rw [Consistent.not_isTaken_iff]
  simp only [forall_and, HasName, not_exists, not_and, NewResource.toRow, ne_eq]

/-- Of a fresh identity nothing has been said. -/
theorem Store.Consistent.silent_of_fresh {s : Store} {written : List StatusKey}
    (h : s.Consistent written) {kind : String} {id : Uuid}
    (hfresh : ∀ r ∈ s.resources, r.id ≠ .text id.toText) :
    ∀ r ∈ s.statuses, r.isAbout ⟨kind, id.toText⟩ = false := by
  intro r hr
  by_contra habout
  rw [Bool.not_eq_false] at habout
  obtain ⟨key, hkey⟩ := h.distinct.keyed r hr
  have hof := StatusRow.isOf_iff.mpr ⟨hkey, (StatusRow.isAbout_iff.mp habout).2.2⟩
  have howner := (StatusRow.isAbout_iff_owner hof _).mp habout
  obtain ⟨row, hrow, hid⟩ := h.known key ((h.kept key).mp ⟨r, hr, hof⟩).1
  exact hfresh row hrow (hid.trans (congrArg (fun k : ResourceRef => Cell.text k.id) howner))

/-- A call that creates a resource: it asks for nothing that cannot be had, nobody cancels it, the
clock is of a year that rows have room for, the identity is fresh and the name is free. -/
structure Call.Creates (c : Call) (s : Store) (kind : String) (new : NewResource) : Prop where
  request : c.request = .create kind new
  cancel : c.cancel = .never
  valid : new.validate = .ok ()
  receivable : new.IsReceivable
  years : 0 ≤ c.now.date.year ∧ c.now.date.year ≤ 9999
  fresh : ∀ r ∈ s.resources, r.id ≠ .text c.freshId.toText
  free : ¬ s.HasName kind new.name

namespace Board

variable {b : Board} {s : Store} {c : Call} {resource : ResourceRef} {spec : KindSpec}

/-- Nobody has said anything of a resource that is there. -/
structure IsUnreported (b : Board) (s : Store) (resource : ResourceRef) : Prop where
  list : ∀ c page pageSize, c.cancel ≠ .before → c.request = .listStatuses resource page pageSize →
    ∃ p, (b.answer s c).result = .ok (.statuses p) ∧ p.items = [] ∧ p.total = 0
  get : ∀ c adapter, c.cancel ≠ .before → c.request = .getStatus (.of resource adapter) →
    (b.answer s c).result = .error (.notFound (.status (.of resource adapter)))

theorem isUnreported_of_silent (hspec : b.resolve resource.kind = .ok spec)
    (hsilent : ∀ r ∈ s.statuses, r.isAbout resource = false) {x : Resource}
    (hread : s.getResource .never resource = .ok (some x)) : b.IsUnreported s resource where
  list := by
    intro c page pageSize hcancel hrequest
    have hget : s.getResource c.circumstances.cancel resource = .ok (some x) :=
      (Store.getResource_eq_never hcancel).trans hread
    have hlist : s.listStatuses c.circumstances.cancel resource _ = _ :=
      Store.listStatuses_of_silent hcancel hsilent (b.paging.resolve page pageSize)
    unfold answer
    rw [hrequest]
    simp only [handle, listStatuses, hspec, hget, hlist]
    exact ⟨_, rfl, rfl, rfl⟩
  get := by
    intro c adapter hcancel hrequest
    rw [answer_getStatus_of_silent hspec hsilent hcancel hrequest]

/-- A resource is created if nothing stands in its way. -/
theorem answer_of_creates {kind : String} {new : NewResource} (h : c.Creates s kind new)
    (hspec : b.resolve kind = .ok spec) :
    ∃ x, Resource.ofRow (new.toRow c.freshId kind c.now) = .ok x ∧
      b.answer s c = ⟨s.withResource (new.toRow c.freshId kind c.now), .ok (.resource x)⟩ ∧
      x.id = c.freshId ∧ x.kind = kind ∧ x.name = new.name ∧ x.statusConditions = .empty := by
  obtain ⟨x, hread, hx⟩ := h.receivable.exists_ofRow_toRow c.freshId kind h.years
  have hcreate := Store.createResource_of_free
    (Store.not_isTaken_toRow_iff.mpr ⟨h.fresh, h.free⟩) hread
  refine ⟨x, hread, ?_, hx⟩
  unfold answer
  rw [h.request]
  simp only [handle, create, hspec, h.valid]
  rw [c.circumstances_cancel, h.cancel]
  exact congrArg (fun a => handle.wrap (reply a .ok) .resource) hcreate

/-- A resource that is created is new in all respects: nobody has said anything of it. -/
theorem isUnreported_of_creates {written : List StatusKey} (hconsistent : s.Consistent written)
    {kind : String} {new : NewResource} (h : c.Creates s kind new)
    (hspec : b.resolve kind = .ok spec) :
    b.IsUnreported (b.answer s c).store ⟨kind, c.freshId.toText⟩ := by
  obtain ⟨x, hread, hanswer, -⟩ := answer_of_creates h hspec
  rw [hanswer]
  refine isUnreported_of_silent (x := x) hspec (hconsistent.silent_of_fresh h.fresh) ?_
  exact Store.getResource_never_eq_ok_iff.mpr ⟨_, Store.findResource?_withResource
    (Store.not_isTaken_toRow_iff.mpr ⟨h.fresh, h.free⟩), hread⟩

/-- A resource that is there is deleted. -/
theorem answer_of_deletion (hrequest : c.request = .delete resource)
    (hspec : b.resolve resource.kind = .ok spec) (hcancel : c.cancel = .never)
    (hshows : s.Shows resource) :
    b.answer s c = ⟨s.markDeleted resource c.now, .ok .deleted⟩ := by
  have hdelete := Store.deleteResource_of_found (Store.isSome_findResource?_iff.mpr hshows) c.now
  unfold answer
  rw [hrequest]
  simp only [handle, delete, hspec]
  rw [c.circumstances_cancel, hcancel]
  exact congrArg (fun a => handle.wrap (reply a .ok) fun _ => .deleted) hdelete

/-- What a deletion that succeeds has found and left. -/
theorem deleted_of_answer (hrequest : c.request = .delete resource)
    (hdeleted : (b.answer s c).result = .ok .deleted) :
    (∃ spec, b.resolve resource.kind = .ok spec) ∧ s.Shows resource ∧
      (b.answer s c).store = s.markDeleted resource c.now := by
  have hspec : ∃ spec, b.resolve resource.kind = .ok spec := by
    cases hkind : b.resolve resource.kind with
    | ok spec => exact ⟨spec, rfl⟩
    | error e =>
        unfold answer at hdeleted
        rw [hrequest] at hdeleted
        simp only [handle, delete, hkind] at hdeleted
        cases hdeleted
  refine ⟨hspec, ?_⟩
  have hends := b.ends_answer c s
  generalize b.answer s c = reply at hends hdeleted
  cases hends with
  | deleted hsame hlive =>
      cases hrequest.symm.trans hsame
      exact ⟨Store.isSome_findResource?_iff.mp hlive, rfl⟩
  | read response hread =>
      rw [hrequest] at hread
      cases hread
  | failed _ | discarded _ | created | conditioned | stored | unreadable => cases hdeleted

/-- The name of a resource that is deleted is free. -/
theorem free_of_deleted {written : List StatusKey} (hconsistent : s.Consistent written)
    {row : ResourceRow} (hrow : row ∈ s.resources) (hof : row.isOf resource = true) {name : String}
    (hname : row.name = .text name) (now : Instant) :
    ¬ (s.markDeleted resource now).HasName resource.kind name := by
  rintro ⟨r', hr', hlive, hkind, hsame⟩
  obtain ⟨r, hr, rfl⟩ := List.mem_map.mp hr'
  obtain ⟨heq, hother⟩ := Store.Consistent.without_of_isLive hlive
  rw [Store.Consistent.without] at heq
  rw [heq] at hlive hkind hsame
  obtain ⟨hrowKind, -, hrowLive⟩ := ResourceRow.isOf_iff.mp hof
  have hclash : r.Clashes row :=
    ⟨hlive, hrowLive, hkind.trans hrowKind.symm, hsame.trans hname.symm⟩
  rw [hconsistent.resource_eq_of_clashes hr hrow hclash, hof] at hother
  cases hother

/-! ## Deletion -/

/-- A resource is denied: whoever asks for it is told that it is not there, and whatever a search
shows is read from rows of other resources. -/
structure Denies (b : Board) (s : Store) (resource : ResourceRef) : Prop where
  asked : ∀ c subject, c.cancel ≠ .before → c.request.AsksFor resource subject →
    b.answer s c = ⟨s, .error (.notFound subject)⟩
  searched : ∀ c p, (b.answer s c).result = .ok (.resources p) → ∀ x ∈ p.items,
    ∃ r ∈ s.resources, r.isLive = true ∧ Resource.ofRow r = .ok x ∧ r.belongsTo resource = false

theorem denies_of_lost (hspec : b.resolve resource.kind = .ok spec) (hlost : s.Lost resource) :
    b.Denies s resource where
  asked := fun _ _ hcancel hasks => answer_of_lost hspec hlost hcancel hasks
  searched := by
    intro c p hshown x hx
    obtain ⟨kind, query, page, hsearch⟩ := search_of_shown hshown
    obtain ⟨r, hr, hlive, hread⟩ := Store.isLive_of_mem_search hsearch x hx
    refine ⟨r, hr, hlive, hread, ?_⟩
    by_contra hrow
    rw [Bool.not_eq_false] at hrow
    rw [hlost.isLive_row hr hrow] at hlive
    cases hlive

/-- Where identities are as they were written, a search never shows what is denied. -/
theorem Denies.not_shown (h : b.Denies s resource) (hnamed : s.IsNamed) {p : Page Resource}
    (hshown : (b.answer s c).result = .ok (.resources p)) :
    ∀ x ∈ p.items, ¬ (x.kind = resource.kind ∧ x.id.toText = resource.id) := by
  rintro x hx ⟨hkind, hid⟩
  obtain ⟨r, hr, -, hread, hother⟩ := h.searched c p hshown x hx
  have hrow : r.belongsTo resource = true := by
    rw [ResourceRow.belongsTo, hnamed.id_eq hr hread, hid,
      (Resource.ofRow_eq_ok_iff.mp hread).kind, hkind]
    simp
  rw [hrow] at hother
  cases hother

/-- A deletion is complete and final.  After one that succeeded, whatever is done next, the resource
is denied, and neither its rows nor those of adapters about it ever change again.  Without damage no
search shows it, and its name is free: until another resource has the name, one can be created with
it, which has another identity, no conditions, and nothing said about it. -/
theorem deletion_is_final {b : Board} {s : Store} {c : Call} {resource : ResourceRef}
    (hrequest : c.request = .delete resource)
    (hdeleted : (b.answer s c).result = .ok .deleted) :
    (∀ t, b.LeadsTo (b.answer s c).store t →
      b.Denies t resource ∧
      t.rowsOf resource = (b.answer s c).store.rowsOf resource ∧
      t.statusRowsOf resource = (b.answer s c).store.statusRowsOf resource) ∧
    ∀ written, b.Reaches s written →
      (∀ row ∈ s.resources, row.isOf resource = true → ∀ name, row.name = .text name →
        ¬ (b.answer s c).store.HasName resource.kind name) ∧
      ∀ t, b.LeadsTo (b.answer s c).store t →
        (∀ call p, (b.answer t call).result = .ok (.resources p) → ∀ x ∈ p.items,
          ¬ (x.kind = resource.kind ∧ x.id.toText = resource.id)) ∧
        ∀ call new, call.Creates t resource.kind new →
          ∃ x, (b.answer t call).result = .ok (.resource x) ∧
            x.kind = resource.kind ∧ x.name = new.name ∧ x.id.toText ≠ resource.id ∧
            x.statusConditions = .empty ∧
            b.IsUnreported (b.answer t call).store ⟨x.kind, x.id.toText⟩ := by
  obtain ⟨⟨spec, hspec⟩, hshows, hafter⟩ := deleted_of_answer hrequest hdeleted
  have hlost : (b.answer s c).store.Lost resource := by
    rw [hafter]
    exact Store.lost_markDeleted hshows c.now
  have hlater : ∀ t, b.LeadsTo (b.answer s c).store t →
      t.Lost resource ∧ b.Denies t resource := by
    intro t hleads
    have hlost' := (hlost.changes hleads.changes).1
    exact ⟨hlost', denies_of_lost hspec hlost'⟩
  refine ⟨fun t hleads => ⟨(hlater t hleads).2, (hlost.changes hleads.changes).2⟩, ?_⟩
  intro written hreaches
  have hstep := hreaches.step (.request c) trivial
  refine ⟨?_, fun t hleads => ?_⟩
  · intro row hrow hof name hname
    rw [hafter]
    exact free_of_deleted (.of_reaches hreaches) hrow hof hname c.now
  obtain ⟨later, hreached⟩ := hstep.leadsTo hleads
  obtain ⟨hlost', hdenies⟩ := hlater t hleads
  refine ⟨fun call p hshown => hdenies.not_shown hreached.isNamed hshown, ?_⟩
  intro call new hcreates
  obtain ⟨x, -, hanswer, hid, hkind, hname, hconditions⟩ := answer_of_creates hcreates hspec
  have hunreported := isUnreported_of_creates (.of_reaches hreached) hcreates hspec
  refine ⟨x, by rw [hanswer], hkind, hname, ?_, hconditions, by rwa [hid, hkind]⟩
  obtain ⟨r, hr, hrow⟩ := hlost'.known
  intro hsame
  exact hcreates.fresh r hr (by rw [hrow, ← hsame, hid])

/-- The cluster is deleted. -/
def sampleDeletion : Call where
  now := default
  freshId := default
  cancel := .never
  request := .delete sampleKey.owner

/-- It is asked what the adapter says. -/
def sampleQuestion : Call where
  now := default
  freshId := default
  cancel := .underway
  request := .getStatus sampleKey

/-- A cluster of the same name is created. -/
def sampleRevival : Call where
  now := default
  freshId := sampleId
  cancel := .never
  request := .create "Cluster" { name := "c1" }

theorem deletion_is_final_sample :
    let after := (sampleBoard.answer sampleStore sampleDeletion).store
    sampleBoard.answer after sampleQuestion = ⟨after, .error (.notFound (.status sampleKey))⟩ ∧
      ∃ x, (sampleBoard.answer after sampleRevival).result = .ok (.resource x) ∧ x.name = "c1" ∧
        x.id.toText ≠ sampleKey.resourceId := by
  intro after
  have hspec : sampleBoard.resolve sampleKey.owner.kind = .ok ⟨KindRegistry.usualMandatory⟩ := rfl
  have hdeletion : sampleBoard.answer sampleStore sampleDeletion =
      ⟨sampleStore.markDeleted sampleKey.owner default, .ok .deleted⟩ :=
    answer_of_deletion rfl hspec rfl (Store.isSome_findResource?_iff.mp (by decide +kernel))
  have hstore : after = sampleStore.markDeleted sampleKey.owner default :=
    congrArg Reply.store hdeletion
  have hcreated := (Reaches.start : Reaches sampleBoard _ _).step sampleCreation trivial
  have hreaches := hcreated.step sampleWrite (by rintro _ _ _ ⟨⟩)
  have hrequest : sampleDeletion.request = .delete sampleKey.owner := rfl
  obtain ⟨hdenied, hfreed⟩ := deletion_is_final hrequest (congrArg Reply.result hdeletion)
  refine ⟨(hdenied after .start).1.asked sampleQuestion _ (by decide) (.getStatus "a1"), ?_⟩
  have hcreates : sampleRevival.Creates after "Cluster" { name := "c1" } := by
    refine ⟨rfl, rfl, by decide, .null _, by decide, ?_, ?_⟩
    · rw [hstore]
      decide +kernel
    · rw [hstore]
      decide +kernel
  obtain ⟨x, hanswer, -, hname, hother, -⟩ := (hfreed _ hreaches).2 after .start |>.2 _ _ hcreates
  exact ⟨x, hanswer, hname, hother⟩

end Board
end StatusBoard

import StatusBoard.Proofs.Service.Failure
import StatusBoard.Proofs.Store.Consistency
set_option autoImplicit false

/-!
# Service: operations in any order

The store can be used directly, and through the board.  Whatever is done with it, from the empty
store on, the tables agree with each other.
-/

namespace StatusBoard

/-- What can be done with the store, apart from reading it. -/
inductive Operation where
  | create (cancel : Cancellation) (id : Uuid) (kind : String) (new : NewResource) (now : Instant)
  | delete (cancel : Cancellation) (resource : ResourceRef) (now : Instant)
  | updateConditions (cancel : Cancellation) (resource : ResourceRef) (now : Instant)
      (replace : String → Store.Replacement)
  | upsert (cancel : Cancellation) (key : StatusKey) (id : Uuid) (planner : Planner)
      (contention : Nat → Contention)
  /-- A request to the board, which may also be one that only reads. -/
  | request (call : Call)

namespace Operation

/-- The store after an operation. -/
def run (b : Board) (s : Store) : Operation → Store
  | create cancel id kind new now => (s.createResource cancel id kind new now).store
  | delete cancel resource now => (s.deleteResource cancel resource now).store
  | updateConditions cancel resource now replace =>
      (s.updateConditions cancel resource now replace).store
  | upsert cancel key id planner contention =>
      (s.upsertStatus cancel key id planner contention).store
  | request call => (b.answer s call).store

/-- The key of the write that was committed, if one was. -/
def written (b : Board) (s : Store) : Operation → List StatusKey
  | upsert cancel key id planner contention =>
    match (s.upsertStatus cancel key id planner contention).result with
    | .ok (.inserted _) | .ok (.updated _) => [key]
    | _ => []
  | request call =>
    match call.request, (b.answer s call).result with
    | .report resource r, .ok (.outcome (.stored ..)) => [.of resource r.adapter]
    | _, _ => []
  | _ => []

/-- A writer that adds a row at the last moment adds one of the same key, with a fresh identity. -/
def IsFair (s : Store) : Operation → Prop
  | upsert _ key _ _ contention =>
    ∀ attempt reason r, contention attempt = .lost reason (some r) →
      r.isOf key = true ∧ ∃ id : Uuid, r.id = .text id.toText ∧ ∀ x ∈ s.statuses, x.id ≠ r.id
  | _ => True

end Operation

/-- The stores that operations lead to, with the keys of the writes that were
committed on the way. -/
inductive Board.Reaches (b : Board) : Store → List StatusKey → Prop where
  | start : Reaches b .empty []
  | step {s : Store} {written : List StatusKey} (op : Operation) (h : Reaches b s written)
      (hfair : op.IsFair s) : Reaches b (op.run b s) (written ++ op.written b s)

namespace Store.Consistent

theorem joins_of_isJoined {s base : Store} {key : StatusKey} {contention : Nat → Contention}
    (hfair : ∀ attempt reason r, contention attempt = .lost reason (some r) →
      r.isOf key = true ∧ ∃ id : Uuid, r.id = .text id.toText ∧ ∀ x ∈ s.statuses, x.id ≠ r.id)
    (h : IsJoined contention key s base) : Joins key s base := by
  cases h with
  | alone => exact .alone
  | joined lost absent =>
      obtain ⟨hof, id, hid, hfresh⟩ := hfair _ _ _ lost
      exact .joined hid hof hfresh absent

/-- A report never goes astray among rows that can be told apart. -/
theorem not_goesAstray {s : Store} {written : List StatusKey} (h : s.Consistent written)
    {b : Board} {c : Call} {resource : ResourceRef} {r : Report} {row : StatusRow}
    {record : StatusRecord} : ¬ b.GoesAstray c s resource r row record := by
  intro hastray
  have hnumbered := isNumbered_of_read h.distinct (List.mem_of_find?_eq_some hastray.found)
    (findStatus?_isLive hastray.found) (StatusRecord.says_of_ofRow hastray.read)
  rw [Board.isNumbered_eq_false hastray.misspelt] at hnumbered
  cases hnumbered

theorem upsert_step {s : Store} {written : List StatusKey} (h : s.Consistent written) (b : Board)
    {cancel : Cancellation} {key : StatusKey} {id : Uuid} {planner : Planner}
    {contention : Nat → Contention}
    (hfair : (Operation.upsert cancel key id planner contention).IsFair s) :
    ((Operation.upsert cancel key id planner contention).run b s).Consistent
      (written ++ (Operation.upsert cancel key id planner contention).written b s) := by
  have hcontests : Contests contention key := by
    intro attempt reason r hlost
    exact (hfair attempt reason r hlost).1
  simp only [Operation.run, Operation.written]
  obtain ⟨e, hanswer⟩ | hanswer | ⟨draft, inserted, record, hanswer, howner, -,
      ⟨base, hjoined, hwrites⟩, hread⟩ :=
    s.upsertStatus_cases cancel id planner hcontests
  · rw [hanswer]
    simpa using h
  · rw [hanswer]
    simpa using h
  · rw [hanswer]
    have hdraft := h.writes (isSome_findResource?_iff.mp howner)
      (joins_of_isJoined hfair hjoined) hwrites hread
    cases inserted <;> exact hdraft

theorem request_step {s : Store} {written : List StatusKey} (h : s.Consistent written)
    (b : Board) (c : Call) :
    ((Operation.request c).run b s).Consistent (written ++ (Operation.request c).written b s) := by
  simp only [Operation.run, Operation.written]
  have hends := b.ends_answer c s
  generalize b.answer s c = reply at hends
  cases hends with
  | failed e => simpa using h
  | discarded reason => simpa using h
  | read response hread =>
      cases hrequest : c.request with
      | get _ | getStatus _ | listStatuses _ _ _ | search _ _ _ _ => simpa using h
      | create _ _ | delete _ | setConditions _ _ _ | report _ _ =>
          rw [hrequest] at hread
          cases hread
  | created hrequest hvalid hfree hread => simpa [hrequest] using h.withResource hfree
  | @deleted resource hrequest hlive => simpa [hrequest] using h.markDeleted resource c.now
  | @conditioned resource _ _ _ _ _ hrequest hnodup hfind htext hread =>
      simpa [hrequest] using h.setConditions resource _ c.now
  | stored hrequest howner hwrites hfind hread hstatus =>
      simp only [hrequest]
      exact h.writes (isSome_findResource?_iff.mp howner) .alone hwrites ⟨_, hfind, hread⟩
  | @unreadable _ _ _ draft _ _ _ _ hrequest hspec hvalid hcancel howner hwrites hfind
      hread hunreadable =>
      have hsame : draft = s := by
        by_contra hchanged
        exact h.not_goesAstray (Board.goesAstray_of_unreadable hrequest hspec hvalid hcancel
          howner hwrites hfind hread hunreadable hchanged)
      rw [hsame]
      simpa [hrequest] using h

/-- What is done with the store leaves the tables in agreement. -/
theorem step {s : Store} {written : List StatusKey} (h : s.Consistent written) (b : Board)
    (op : Operation) (hfair : op.IsFair s) :
    (op.run b s).Consistent (written ++ op.written b s) := by
  cases op with
  | create cancel id kind new now =>
      simp only [Operation.run, Operation.written, List.append_nil]
      obtain ⟨e, hanswer⟩ | ⟨created, hanswer, hfree, -⟩ :=
        s.createResource_cases cancel id kind new now
      · rw [hanswer]
        exact h
      · rw [hanswer]
        exact h.withResource hfree
  | delete cancel resource now =>
      simp only [Operation.run, Operation.written, List.append_nil]
      obtain ⟨e, hanswer⟩ | ⟨hanswer, -⟩ := s.deleteResource_cases cancel resource now
      · rw [hanswer]
        exact h
      · rw [hanswer]
        exact h.markDeleted resource now
  | updateConditions cancel resource now replace =>
      simp only [Operation.run, Operation.written, List.append_nil]
      obtain ⟨e, hanswer⟩ | ⟨row, raw, updated, hanswer, -⟩ :=
        s.updateConditions_cases cancel resource now replace
      · rw [hanswer]
        exact h
      · rw [hanswer]
        exact h.setConditions resource _ now
  | upsert cancel key id planner contention => exact h.upsert_step b hfair
  | request call => exact h.request_step b call

theorem of_reaches {b : Board} {s : Store} {written : List StatusKey} (h : b.Reaches s written) :
    s.Consistent written := by
  induction h with
  | start => exact .empty
  | step op _ hfair ih => exact ih.step b op hfair

end Store.Consistent

/-- What the board lists as the total is what the store counts. -/
theorem Board.total_listStatuses {b : Board} {c : Circumstances} {s : Store}
    {resource : ResourceRef} {page pageSize : Option UInt32} {p : Page AdapterStatus}
    (h : b.listStatuses c s resource page pageSize = .ok p) :
    ∃ found, s.listStatuses c.cancel resource (b.paging.resolve page pageSize) = .ok found ∧
      p.total = found.total := by
  unfold listStatuses at h
  obtain ⟨-, -, h⟩ := bind_eq_ok_iff.mp h
  obtain ⟨owner, -, h⟩ := bind_eq_ok_iff.mp h
  cases howner : owner.isNone with
  | true => simp [howner, bind, Except.bind, throw, throwThe, MonadExceptOf.throw] at h
  | false =>
      simp only [howner, Bool.false_eq_true, if_false] at h
      obtain ⟨found, hfound, h⟩ := bind_eq_ok_iff.mp h
      refine ⟨found, ?_, ?_⟩
      · cases hlist : s.listStatuses c.cancel resource (b.paging.resolve page pageSize) with
        | error e => simp [hlist] at hfound
        | ok found' =>
            simp only [hlist, mapError_ok, Except.ok.injEq] at hfound
            rw [hfound]
      · obtain ⟨items, -, hp⟩ := bind_eq_ok_iff.mp h
        cases hp
        rfl

/-- Whatever was done with the store, no key has two live rows, no kind and name has two live
resources, every live status is about a live resource, and a live resource has as many statuses as
adapters had a write on it committed. -/
theorem Board.tables_agree {b : Board} {s : Store} {written : List StatusKey}
    (h : b.Reaches s written) :
    (s.statuses.Pairwise fun a b => ¬ a.Clashes b) ∧
    (s.resources.Pairwise fun a b => ¬ a.Clashes b) ∧
    (∀ r ∈ s.statuses, r.isLive = true →
      ∃ key, r.HasKey key ∧ ∃ owner ∈ s.resources, owner.isOf key.owner = true) ∧
    ∀ resource, (∃ r ∈ s.resources, r.isOf resource = true) →
      (∀ cancel page, cancel ≠ .before → ∃ p, s.listStatuses cancel resource page = .ok p ∧
        p.total = ((written.filter (·.owner = resource)).map (·.adapter)).dedup.length) ∧
      ∀ c page pageSize p, b.listStatuses c s resource page pageSize = .ok p →
        p.total = ((written.filter (·.owner = resource)).map (·.adapter)).dedup.length := by
  have hconsistent := Store.Consistent.of_reaches h
  refine ⟨hconsistent.distinct.keys, hconsistent.names, ?_, ?_⟩
  · intro r hr hlive
    obtain ⟨key, hkey⟩ := hconsistent.distinct.keyed r hr
    exact ⟨key, hkey, ((hconsistent.kept key).mp ⟨r, hr, StatusRow.isOf_iff.mpr ⟨hkey, hlive⟩⟩).2⟩
  · intro resource hshows
    refine ⟨fun cancel page hcancel => hconsistent.listStatuses hshows hcancel page, ?_⟩
    intro c page pageSize p hlist
    obtain ⟨found, hfound, htotal⟩ := Board.total_listStatuses hlist
    have hcancel : c.cancel ≠ .before := by
      intro hbefore
      simp [Store.listStatuses, hbefore, Cancellation.checkStart, bind, Except.bind] at hfound
    obtain ⟨counted, hcounted, hcount⟩ :=
      hconsistent.listStatuses hshows hcancel (b.paging.resolve page pageSize)
    rw [hfound] at hcounted
    cases hcounted
    rw [htotal, hcount]
    rfl

namespace Board

/-- A resource is created. -/
def sampleCreation : Operation :=
  .request {
    now := default
    freshId := default
    cancel := .never
    request := .create "Cluster" { name := "c1" } }

/-- The status of an adapter of it. -/
def sampleKey : StatusKey :=
  .of ⟨"Cluster", (default : Uuid).toText⟩ "a1"

/-- Something is written for the adapter. -/
def sampleWrite : Operation :=
  .upsert .never sampleKey default
    (fun _ _ => ⟨.write {
      observedGeneration := 1, conditions := "[]", data := none, metadata := none, now := default },
      false⟩)
    fun _ => .clear

/-- The store after that. -/
def sampleStore : Store :=
  sampleWrite.run sampleBoard (sampleCreation.run sampleBoard .empty)

theorem tables_agree_sample :
    sampleStore.statuses.length = 1 ∧
      ∃ p, sampleStore.listStatuses .never sampleKey.owner ⟨1, 20⟩ = .ok p ∧ p.total = 1 := by
  have hcreated := (Reaches.start : Reaches sampleBoard _ _).step sampleCreation trivial
  have hreaches := hcreated.step sampleWrite (by rintro _ _ _ ⟨⟩)
  have hwritten : [] ++ sampleCreation.written sampleBoard .empty ++
      sampleWrite.written sampleBoard (sampleCreation.run sampleBoard .empty) = [sampleKey] := by
    decide +kernel
  rw [hwritten] at hreaches
  have hagree := tables_agree hreaches
  refine ⟨by decide +kernel, ?_⟩
  obtain ⟨p, hlist, htotal⟩ :=
    (hagree.2.2.2 sampleKey.owner (by decide +kernel)).1 .never ⟨1, 20⟩ (by decide)
  exact ⟨p, hlist, htotal.trans (by decide +kernel)⟩

end Board
end StatusBoard

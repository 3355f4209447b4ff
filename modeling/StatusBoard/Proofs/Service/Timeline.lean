import StatusBoard.Proofs.Condition.Timeline
import StatusBoard.Proofs.Service.History
set_option autoImplicit false

/-!
# Service: times in the tables run forward

A report is stamped no earlier than the row that it is stored in, so the times of statuses run
forward whatever clock the calls read.  Conditions of a resource are stamped with the clock alone:
times of resources run forward exactly as long as no conditions are set on a resource at a time
before its last update.
-/

namespace StatusBoard

open Timeline

/-! ## What rows tell of times -/

/-- What is read from one cell twice is the same. -/
theorem Cell.eq_of_reads {α : Type} {read : String → Option α} {cell : Cell} {x y : α}
    (hx : ∃ raw, cell = .text raw ∧ read raw = some x)
    (hy : ∃ raw, cell = .text raw ∧ read raw = some y) : x = y := by
  obtain ⟨raw, hraw, hread⟩ := hx
  have hread' := Cell.read_eq hraw hy
  exact Option.some.inj (hread.symm.trans hread')

/-- The times that a row of statuses tells of, if it is read. -/
def StatusRow.timeline? (row : StatusRow) : Option Timeline :=
  match StatusRecord.ofRow row with
  | .error _ => none
  | .ok record =>
    match Document.parse record.conditions with
    | .error _ => none
    | .ok d => some ⟨record.id, record.createdTime, record.lastReportTime, d⟩

/-- The times that a row of resources tells of, if it is read. -/
def ResourceRow.timeline? (row : ResourceRow) : Option Timeline :=
  match Resource.ofRow row with
  | .error _ => none
  | .ok r => some ⟨r.id, r.createdTime, r.updatedTime, r.statusConditions⟩

/-- The times that the statuses of a store tell of, row by row. -/
def Store.statusTimes (s : Store) : List (Option Timeline) :=
  s.statuses.map (·.timeline?)

/-- The times that the resources of a store tell of, row by row. -/
def Store.resourceTimes (s : Store) : List (Option Timeline) :=
  s.resources.map (·.timeline?)

namespace StatusRow

theorem timeline?_eq_some_iff {row : StatusRow} {k : Timeline} :
    row.timeline? = some k ↔ ∃ record, StatusRecord.ofRow row = .ok record ∧
      Document.parse record.conditions = .ok k.document ∧
      k.id = record.id ∧ k.created = record.createdTime ∧ k.updated = record.lastReportTime := by
  unfold timeline?
  constructor
  · intro h
    split at h
    · cases h
    · rename_i record hread
      split at h
      · cases h
      · rename_i d hparse
        cases h
        exact ⟨record, hread, hparse, rfl, rfl, rfl⟩
  · rintro ⟨record, hread, hparse, hid, hcreated, hupdated⟩
    simp only [hread, hparse, ← hid, ← hcreated, ← hupdated]

/-- Whatever reads the columns of a row reads the times that the row tells of. -/
theorem Says.timeline {row : StatusRow} {record : StatusRecord} (h : row.Says record)
    {k : Timeline} (hk : row.timeline? = some k) :
    Document.parse record.conditions = .ok k.document ∧
      record.id = k.id ∧ record.createdTime = k.created ∧ record.lastReportTime = k.updated := by
  obtain ⟨found, hread, hparse, hid, hcreated, hupdated⟩ := timeline?_eq_some_iff.mp hk
  have hcolumns := StatusRecord.says_of_ofRow hread
  refine ⟨?_, ?_, ?_, ?_⟩
  · rw [Cell.text.inj (h.conditions.symm.trans hcolumns.conditions)]
    exact hparse
  · rw [hid]
    exact Cell.eq_of_reads h.id hcolumns.id
  · rw [hcreated]
    exact Cell.eq_of_reads h.createdTime hcolumns.createdTime
  · rw [hupdated]
    exact Cell.eq_of_reads h.lastReportTime hcolumns.lastReportTime

/-- A deletion leaves the times of a row alone. -/
theorem timeline?_withoutOwner (resource : ResourceRef) (now : Instant) (row : StatusRow) :
    (Store.Consistent.withoutOwner resource now row).timeline? = row.timeline? := by
  unfold Store.Consistent.withoutOwner
  cases row.isAbout resource <;> rfl

/-- The first report on a key makes a row whose times are in order. -/
theorem timeline?_toRow {r : Report} (hnodup : (r.conditions.map (·.type)).Nodup)
    {now : Instant} (hmicro : now.IsMicro) {id : Uuid} {key : StatusKey} {record : StatusRecord}
    (hread : StatusRecord.ofRow ((r.writeOver now none).toRow id key) = .ok record) :
    ∃ k, ((r.writeOver now none).toRow id key).timeline? = some k ∧ k.IsSound := by
  have hcolumns := StatusRecord.says_of_ofRow hread
  let d := (Document.sent r.conditions r.observedGeneration now).mergedOver none now
  have hparse : Document.parse record.conditions = .ok d := by
    rw [← Cell.text.inj hcolumns.conditions]
    exact Report.parse_writeOver hnodup now none
  have hcreated : record.createdTime = now :=
    hmicro.eq_of_parseStrict? (Cell.read_eq rfl hcolumns.createdTime)
  have hupdated : record.lastReportTime = now :=
    hmicro.eq_of_parseStrict? (Cell.read_eq rfl hcolumns.lastReportTime)
  refine ⟨first record.id d now, timeline?_eq_some_iff.mpr ⟨record, hread, hparse, rfl,
    hcreated.symm, hupdated.symm⟩, ?_⟩
  apply isSound_first hmicro
  · exact Document.isOrdered_mergedOver (by simp) _ _
  · exact (Document.hasDistinctTypes_sent hnodup _ _).mergedOver none now

/-- A further report on a key revises the times of its row. -/
theorem timeline?_applyTo {row : StatusRow} {k : Timeline} (hk : row.timeline? = some k)
    (hsound : k.IsSound) {previous record : StatusRecord} (hcolumns : row.Says previous)
    {r : Report} (hnodup : (r.conditions.map (·.type)).Nodup) {now : Instant}
    (hmicro : now.IsMicro)
    (hread : StatusRecord.ofRow ((r.writeOver now (some previous)).applyTo row) = .ok record) :
    ∃ later, ((r.writeOver now (some previous)).applyTo row).timeline? = some later ∧
      later.IsSound ∧ later.Continues k := by
  obtain ⟨hold, hid, hcreated, hupdated⟩ := hcolumns.timeline hk
  let stamp := Instant.latest now k.updated
  have hstamp : Report.stamp now (some previous) = stamp := by
    rw [Report.stamp, hupdated]
  have hforward : k.updated ≤ stamp := Instant.le_latest_right now k.updated
  have hstampMicro : stamp.IsMicro := hmicro.latest hsound.micro
  have hcolumns' := StatusRecord.says_of_ofRow hread
  have hparse : Document.parse record.conditions =
      .ok (k.revised r.conditions r.observedGeneration stamp).document := by
    rw [← Cell.text.inj hcolumns'.conditions, Report.parse_writeOver hnodup, hstamp,
      Option.map_some, Document.previousOf_some_of_parse hold]
    rfl
  have hid' : record.id = k.id := (Cell.eq_of_reads hcolumns'.id hcolumns.id).trans hid
  have hcreated' : record.createdTime = k.created :=
    (Cell.eq_of_reads hcolumns'.createdTime hcolumns.createdTime).trans hcreated
  have hupdated' : record.lastReportTime = stamp := by
    apply hstampMicro.eq_of_parseStrict?
    rw [← hstamp]
    exact Cell.read_eq rfl hcolumns'.lastReportTime
  refine ⟨k.revised r.conditions r.observedGeneration stamp,
    timeline?_eq_some_iff.mpr ⟨record, hread, hparse, hid'.symm, hcreated'.symm, hupdated'.symm⟩,
    ?_, ?_⟩
  · exact hsound.revised hstampMicro hforward hnodup _
  · exact continues_revised hforward _ _

end StatusRow

namespace ResourceRow

theorem timeline?_eq_some_iff {row : ResourceRow} {k : Timeline} :
    row.timeline? = some k ↔ ∃ r, Resource.ofRow row = .ok r ∧
      k = ⟨r.id, r.createdTime, r.updatedTime, r.statusConditions⟩ := by
  unfold timeline?
  cases Resource.ofRow row with
  | error e => simp
  | ok r =>
      simp only [Option.some.injEq, Except.ok.injEq, exists_eq_left']
      exact eq_comm

/-- A deletion leaves the times of a row alone. -/
theorem timeline?_without (resource : ResourceRef) (now : Instant) (row : ResourceRow) :
    (Store.Consistent.without resource now row).timeline? = row.timeline? := by
  unfold Store.Consistent.without
  cases row.isOf resource <;> rfl

/-- A resource is created with times that are in order. -/
theorem timeline?_toRow {new : NewResource} {id : Uuid} {kind : String} {now : Instant}
    (hmicro : now.IsMicro) {created : Resource}
    (hread : Resource.ofRow (new.toRow id kind now) = .ok created) :
    ∃ k, (new.toRow id kind now).timeline? = some k ∧ k.IsSound := by
  have hcolumns := Resource.ofRow_eq_ok_iff.mp hread
  have hconditions : created.statusConditions = .empty := by
    have hparse := Cell.read_eq rfl hcolumns.statusConditions
    rw [Document.parse_empty] at hparse
    exact (Except.ok.inj hparse).symm
  have hcreated : created.createdTime = now :=
    hmicro.eq_of_parseStrict? (Cell.read_eq rfl hcolumns.createdTime)
  have hupdated : created.updatedTime = now :=
    hmicro.eq_of_parseStrict? (Cell.read_eq rfl hcolumns.updatedTime)
  refine ⟨first created.id .empty now, timeline?_eq_some_iff.mpr ⟨created, hread, ?_⟩, ?_⟩
  · rw [hconditions, hcreated, hupdated, first]
  · exact isSound_first hmicro (Document.isOrdered_empty now) List.nodup_nil

/-- Conditions that are set revise the times of a row. -/
theorem timeline?_withConditions {row : ResourceRow} {k : Timeline}
    (hk : row.timeline? = some k) {raw : String} (htext : row.statusConditions = .text raw)
    {conditions : List ConditionInput} (hnodup : (conditions.map (·.type)).Nodup)
    {generation : Int64} {now : Instant} (hmicro : now.IsMicro) {updated : Resource}
    (hread : Resource.ofRow (Store.withConditions
      (Document.setOver conditions generation now raw).render now row) = .ok updated) :
    (Store.withConditions (Document.setOver conditions generation now raw).render now row).timeline?
      = some (k.revised conditions generation now) := by
  obtain ⟨found, hfound, rfl⟩ := timeline?_eq_some_iff.mp hk
  have hcolumns := Resource.ofRow_eq_ok_iff.mp hfound
  have hcolumns' := Resource.ofRow_eq_ok_iff.mp hread
  have hold : Document.previousOf (some raw) = some found.statusConditions :=
    Document.previousOf_some_of_parse (Cell.read_eq htext hcolumns.statusConditions)
  have hconditions : updated.statusConditions =
      (Document.sent conditions generation now).mergedOver (some found.statusConditions) now := by
    have hparse := Cell.read_eq rfl hcolumns'.statusConditions
    rw [Document.setOver, hold, Document.parse_render_mergedOver
      (Document.hasDistinctTypes_sent hnodup generation now)] at hparse
    exact (Except.ok.inj hparse).symm
  have hid : updated.id = found.id := Cell.eq_of_reads hcolumns'.id hcolumns.id
  have hcreated : updated.createdTime = found.createdTime :=
    Cell.eq_of_reads hcolumns'.createdTime hcolumns.createdTime
  have hupdated : updated.updatedTime = now :=
    hmicro.eq_of_parseStrict? (Cell.read_eq rfl hcolumns'.updatedTime)
  refine timeline?_eq_some_iff.mpr ⟨updated, hread, ?_⟩
  rw [hconditions, hid, hcreated, hupdated, revised]

end ResourceRow

/-! ## One call -/

namespace Store.Consistent

variable {s : Store} {written : List StatusKey} {b : Board} {c : Call}

/-- A report that is stored adds a row whose times are in order, or carries on those of
the one row of its key. -/
theorem statusTimes_stored (h : s.Consistent written) (hsound : AllSound s.statusTimes)
    (hmicro : c.now.IsMicro) {resource : ResourceRef} {r : Report} {spec : KindSpec} {draft : Store}
    {inserted : Bool} {row : StatusRow} {record : StatusRecord}
    (hwrites : Writes (Board.planner spec r c.now) (.of resource r.adapter) c.freshId s
      draft inserted)
    (hfind : draft.findStatus? (.of resource r.adapter) = some row)
    (hread : StatusRecord.ofRow row = .ok record) :
    AllSound draft.statusTimes ∧ AllContinue s.statusTimes draft.statusTimes := by
  cases hwrites with
  | insert plan fresh absent =>
      obtain ⟨-, hnodup, rfl⟩ := Board.planner_eq_write_iff.mp plan
      rw [findStatus?_withStatus absent] at hfind
      cases hfind
      obtain ⟨k, hk, hfirst⟩ := StatusRow.timeline?_toRow hnodup hmicro hread
      simp only [statusTimes, withStatus, List.map_append, List.map_singleton, hk]
      exact hsound.snoc hfirst
  | @update _ _ found previous plan hfound hprevious numbered =>
      obtain ⟨-, hnodup, rfl⟩ := Board.planner_eq_write_iff.mp plan
      have hcolumns := StatusRecord.says_of_ofRowForUpdate hprevious
      have hrow := List.mem_of_find?_eq_some hfound
      have hnumbered := isNumbered_of_read h.distinct hrow (findStatus?_isLive hfound) hcolumns
      rw [findStatus?_overwritten, hfound, Option.map_some, if_pos hnumbered] at hfind
      cases hfind
      apply hsound.map
      intro other hother k hk hkSound
      cases hcase : isNumbered previous.id other with
      | false => exact ⟨k, hk, hkSound, .refl k⟩
      | true =>
          have hid : other.id = found.id := by
            simp only [isNumbered, Bool.and_eq_true, decide_eq_true_eq] at hcase hnumbered
            exact hcase.1.trans hnumbered.1.symm
          cases h.distinct.eq_of_id hother hrow hid
          exact StatusRow.timeline?_applyTo hk hkSound hcolumns hnodup hmicro hread

/-- Whatever a call comes to, the times of statuses stay in order and go on. -/
theorem statusTimes_answer (h : s.Consistent written) (hsound : AllSound s.statusTimes)
    (hmicro : c.now.IsMicro) :
    AllSound (b.answer s c).store.statusTimes ∧
      AllContinue s.statusTimes (b.answer s c).store.statusTimes := by
  have hends := b.ends_answer c s
  generalize b.answer s c = reply at hends
  cases hends with
  | failed e => exact ⟨hsound, .refl _⟩
  | discarded reason => exact ⟨hsound, .refl _⟩
  | read response hread => exact ⟨hsound, .refl _⟩
  | created _ _ _ _ _ => exact ⟨hsound, .refl _⟩
  | @deleted resource hrequest hlive =>
      apply hsound.map
      intro row _ k hk hkSound
      exact ⟨k, (StatusRow.timeline?_withoutOwner resource c.now row).trans hk, hkSound, .refl k⟩
  | conditioned _ _ _ _ _ _ => exact ⟨hsound, .refl _⟩
  | stored hrequest howner hwrites hfind hread hstatus hspec hvalid =>
      exact h.statusTimes_stored hsound hmicro hwrites hfind hread
  | unreadable hrequest hspec hvalid hcancel howner hwrites hfind hread hunreadable =>
      exact h.statusTimes_stored hsound hmicro hwrites hfind hread

end Store.Consistent

/-- Should the call set conditions of a resource, it does so no earlier than the resource was last
updated. -/
def Board.SetsForward (b : Board) (s : Store) (c : Call) : Prop :=
  ∀ resource generation conditions updated row found,
    c.request = .setConditions resource generation conditions →
    (b.answer s c).result = .ok (.resource updated) →
    s.findResource? resource = some row → Resource.ofRow row = .ok found →
      found.updatedTime ≤ c.now

namespace Store.Consistent

variable {s : Store} {written : List StatusKey} {b : Board} {c : Call}

/-- Whatever a call comes to that sets conditions only forward, the times of resources
stay in order and go on. -/
theorem resourceTimes_answer (h : s.Consistent written) (hsound : AllSound s.resourceTimes)
    (hmicro : c.now.IsMicro) (hforward : b.SetsForward s c) :
    AllSound (b.answer s c).store.resourceTimes ∧
      AllContinue s.resourceTimes (b.answer s c).store.resourceTimes := by
  have hends := b.ends_answer c s
  unfold Board.SetsForward at hforward
  generalize b.answer s c = reply at hends hforward
  cases hends with
  | failed e => exact ⟨hsound, .refl _⟩
  | discarded reason => exact ⟨hsound, .refl _⟩
  | read response hread => exact ⟨hsound, .refl _⟩
  | created hrequest hvalid hfree hread hkind =>
      obtain ⟨k, hk, hfirst⟩ := ResourceRow.timeline?_toRow hmicro hread
      simp only [resourceTimes, Store.withResource, List.map_append, List.map_singleton, hk]
      exact hsound.snoc hfirst
  | @deleted resource hrequest hlive =>
      apply hsound.map
      intro row _ k hk hkSound
      exact ⟨k, (ResourceRow.timeline?_without resource c.now row).trans hk, hkSound, .refl k⟩
  | @conditioned resource generation conditions row raw updated hrequest hnodup hfind htext hread
      hcheck =>
      have hrow := List.mem_of_find?_eq_some hfind
      have hof := findResource?_isOf hfind
      rw [setConditions_eq]
      apply hsound.map
      intro other hother k hk hkSound
      by_cases hsame : other.isOf resource = true
      · have hid : other.id = row.id :=
          (ResourceRow.isOf_iff.mp hsame).2.1.trans (ResourceRow.isOf_iff.mp hof).2.1.symm
        cases h.resource_eq_of_id hother hrow hid
        have hle : k.updated ≤ c.now := by
          obtain ⟨found, hfound, rfl⟩ := ResourceRow.timeline?_eq_some_iff.mp hk
          exact hforward _ _ _ _ _ _ hrequest rfl hfind hfound
        have hrevised := ResourceRow.timeline?_withConditions hk htext hnodup hmicro hread
        rw [conditioned, if_pos hsame]
        exact ⟨k.revised conditions generation c.now, hrevised,
          hkSound.revised hmicro hle hnodup generation, continues_revised hle conditions generation⟩
      · rw [conditioned, if_neg hsame]
        exact ⟨k, hk, hkSound, .refl k⟩
  | @stored _ _ _ draft _ _ _ _ hrequest howner hwrites hfind hread hstatus hspec hvalid =>
      have hsame : draft.resourceTimes = s.resourceTimes :=
        congrArg (List.map _) hwrites.resources_eq
      rw [hsame]
      exact ⟨hsound, .refl _⟩
  | @unreadable _ _ _ draft _ _ _ _ hrequest hspec hvalid hcancel howner hwrites hfind hread
      hunreadable =>
      have hsame : draft.resourceTimes = s.resourceTimes :=
        congrArg (List.map _) hwrites.resources_eq
      rw [hsame]
      exact ⟨hsound, .refl _⟩

end Store.Consistent

/-! ## All calls -/

namespace Board

variable {b : Board} {calls : List Call} {times : Store → List (Option Timeline)}

/-- The times of a table go on over the calls of a run if they do over each call. -/
structure CarriesOn (b : Board) (calls : List Call) (times : Store → List (Option Timeline)) :
    Prop where
  start : times .empty = []
  step : ∀ earlier c later, calls = earlier ++ c :: later →
    AllSound (times (b.run earlier).1) → AllSound (times (b.answer (b.run earlier).1 c).store) ∧
      AllContinue (times (b.run earlier).1) (times (b.answer (b.run earlier).1 c).store)

theorem CarriesOn.allSound (h : b.CarriesOn calls times) {earlier later : List Call}
    (hcalls : calls = earlier ++ later) : AllSound (times (b.run earlier).1) := by
  induction earlier using List.reverseRecOn generalizing later with
  | nil => simp [run, h.start, AllSound]
  | append_singleton earlier c ih =>
      rw [List.append_assoc] at hcalls
      rw [b.run_snoc]
      exact (h.step earlier c later hcalls (ih hcalls)).1

theorem CarriesOn.allContinue (h : b.CarriesOn calls times) {earlier more later : List Call}
    (hcalls : calls = earlier ++ more ++ later) :
    AllContinue (times (b.run earlier).1) (times (b.run (earlier ++ more)).1) := by
  induction more using List.reverseRecOn generalizing later with
  | nil =>
      rw [List.append_nil]
      exact .refl _
  | append_singleton more c ih =>
      rw [← List.append_assoc, List.append_assoc] at hcalls
      rw [← List.append_assoc, b.run_snoc]
      exact (ih hcalls).trans (h.step _ c later hcalls (h.allSound hcalls)).2

theorem CarriesOn.runForward (h : b.CarriesOn calls times) {earlier more later : List Call}
    (hcalls : calls = earlier ++ more ++ later) :
    RunForward (times (b.run earlier).1) (times (b.run (earlier ++ more)).1) := by
  have hearlier : calls = earlier ++ (more ++ later) := by rw [hcalls, List.append_assoc]
  exact (h.allContinue hcalls).runForward (h.allSound hearlier) (h.allSound hcalls)

/-- The times of statuses run forward.  From one point of a run to any later one, with a clock of
whole microseconds that may step back at will, each row of statuses keeps its place, its
identity and its time of creation, the time of its last report does not go back, and neither does
the time of the last change of any type that is in its document at both points; and at either
point its times are in order. -/
theorem status_times_run_forward (b : Board) (calls more : List Call)
    (hmicro : ∀ c ∈ calls ++ more, c.now.IsMicro) :
    RunForward (b.run calls).1.statusTimes (b.run (calls ++ more)).1.statusTimes := by
  have hcarries : b.CarriesOn (calls ++ more) Store.statusTimes := by
    refine ⟨rfl, ?_⟩
    intro earlier c later hcalls hsound
    obtain ⟨written, hconsistent⟩ := b.consistent_run earlier
    exact hconsistent.statusTimes_answer hsound (hmicro c (by simp [hcalls]))
  exact hcarries.runForward (List.append_nil (calls ++ more)).symm

/-- A time of a sample day. -/
def sampleTime (second : Fin 86400) : Instant :=
  (Instant.of? default second.val 0).getD default

/-- A call of a sample day about the one cluster. -/
def sampleCall (second : Fin 86400) (request : ResourceRef → Request) : Call where
  now := sampleTime second
  freshId := default
  cancel := .never
  request := request ⟨"Cluster", (default : Uuid).toText⟩

/-- A report on the cluster that says one thing of all that is mandatory. -/
def sampleReport (second : Fin 86400) (status : ConditionStatus) : Call :=
  sampleCall second fun cluster => .report cluster {
    adapter := "a1"
    observedGeneration := 1
    conditions := KindRegistry.usualMandatory.map fun type => { type, status } }

/-- The cluster is created and reported on, and the clock steps back before the second report. -/
def sampleReports : List Call :=
  [sampleCall 0 fun _ => .create "Cluster" { name := "c1" },
   sampleReport 7200 .holds, sampleReport 3600 .fails]

theorem status_times_run_forward_sample :
    (sampleBoard.run (sampleReports.take 2)).1.statuses.length = 1 ∧
      RunForward (sampleBoard.run (sampleReports.take 2)).1.statusTimes
        (sampleBoard.run (sampleReports.take 2 ++ sampleReports.drop 2)).1.statusTimes :=
  ⟨by decide +kernel,
    status_times_run_forward sampleBoard (sampleReports.take 2) (sampleReports.drop 2) (by decide)⟩

/-- A resource whose conditions are set tells of the time of the call from then on. -/
theorem updated_of_setConditions {s : Store} {c : Call} {resource : ResourceRef}
    {generation : Int64} {conditions : List ConditionInput} {updated : Resource}
    {row : ResourceRow} {k : Timeline} (hmicro : c.now.IsMicro)
    (hrequest : c.request = .setConditions resource generation conditions)
    (hresult : (b.answer s c).result = .ok (.resource updated))
    (hfind : s.findResource? resource = some row) (hk : row.timeline? = some k) {i : Nat}
    (hrow : s.resources[i]? = some row) :
    (b.answer s c).store.resourceTimes[i]? =
      some (some (k.revised conditions generation c.now)) := by
  obtain ⟨row', raw, hnodup, -, hfind', htext, hstore, hread⟩ :=
    (b.ends_answer c s).conditioned_of_result hrequest hresult
  cases hfind.symm.trans hfind'
  have hof : row.isOf resource = true := Store.findResource?_isOf hfind
  have hrevised := ResourceRow.timeline?_withConditions hk htext hnodup hmicro hread
  rw [hstore, Store.Consistent.setConditions_eq, Store.resourceTimes, List.getElem?_map,
    List.getElem?_map, hrow, Option.map_some, Option.map_some, Store.Consistent.conditioned,
    if_pos hof, hrevised]

/-- The times of resources run forward, from any point of a run to any later one, exactly if
no call of the run sets conditions of a resource at a time before its last update.  The clock alone
decides: what is set is stamped with the time of the call, also where the row is younger. -/
theorem resource_times_run_forward_iff (b : Board) (calls : List Call)
    (hmicro : ∀ c ∈ calls, c.now.IsMicro) :
    (∀ earlier more later, calls = earlier ++ more ++ later →
      RunForward (b.run earlier).1.resourceTimes (b.run (earlier ++ more)).1.resourceTimes) ↔
    ∀ earlier c later, calls = earlier ++ c :: later → b.SetsForward (b.run earlier).1 c := by
  constructor
  · intro h earlier c later hcalls resource generation conditions updated row found hrequest
      hresult hfind hread
    have hforward := h earlier [c] later (by simp [hcalls])
    rw [b.run_snoc] at hforward
    have hk := ResourceRow.timeline?_eq_some_iff.mpr ⟨found, hread, rfl⟩
    obtain ⟨i, hi⟩ := List.getElem?_of_mem (List.mem_of_find?_eq_some hfind)
    have hbefore : (b.run earlier).1.resourceTimes[i]? = some row.timeline? := by
      rw [Store.resourceTimes, List.getElem?_map, hi, Option.map_some]
    obtain ⟨k, next, hrow, hnext, -, -, hprecedes⟩ := hforward i _ hbefore
    rw [hk] at hrow
    cases hrow
    have hset := updated_of_setConditions (hmicro c (by simp [hcalls])) hrequest hresult hfind hk hi
    cases hnext.symm.trans hset
    exact hprecedes.updated
  · intro h earlier more later hcalls
    have hcarries : b.CarriesOn calls Store.resourceTimes := by
      refine ⟨rfl, ?_⟩
      intro earlier c later hcalls hsound
      obtain ⟨written, hconsistent⟩ := b.consistent_run earlier
      exact hconsistent.resourceTimes_answer hsound (hmicro c (by simp [hcalls]))
        (h earlier c later hcalls)
    exact hcarries.runForward hcalls

/-- The cluster is created, and conditions of it are set; the clock steps back before they are set
again. -/
def sampleSettings : List Call :=
  let settle (second : Fin 86400) : Call :=
    sampleCall second (.setConditions · 1 [{ type := "Ready", status := .holds }])
  [sampleCall 0 fun _ => .create "Cluster" { name := "c1" }, settle 7200, settle 3600]

/-- As long as the clock goes on, so do the times of resources. -/
theorem resource_times_run_forward_sample :
    (∀ c ∈ sampleSettings.take 2, c.now.IsMicro) ∧
    ((∀ earlier more later, sampleSettings.take 2 = earlier ++ more ++ later →
      RunForward (sampleBoard.run earlier).1.resourceTimes
        (sampleBoard.run (earlier ++ more)).1.resourceTimes) ↔
    ∀ earlier c later, sampleSettings.take 2 = earlier ++ c :: later →
      sampleBoard.SetsForward (sampleBoard.run earlier).1 c) :=
  ⟨by decide, resource_times_run_forward_iff sampleBoard (sampleSettings.take 2) (by decide)⟩

/-- The second setting takes the time of the update back by an hour. -/
theorem setting_conditions_rewinds :
    ¬ ∀ (b : Board) (calls more : List Call), (∀ c ∈ calls ++ more, c.now.IsMicro) →
      RunForward (b.run calls).1.resourceTimes (b.run (calls ++ more)).1.resourceTimes := by
  intro h
  have hforward := h sampleBoard (sampleSettings.take 2) (sampleSettings.drop 2) (by decide)
  have hbefore : (sampleBoard.run (sampleSettings.take 2)).1.resourceTimes.map
      (·.map Timeline.updated) = [some (sampleTime 7200)] := by
    decide +kernel
  have hafter : (sampleBoard.run (sampleSettings.take 2 ++ sampleSettings.drop 2)).1.resourceTimes.map
      (·.map Timeline.updated) = [some (sampleTime 3600)] := by
    decide +kernel
  obtain ⟨x, hx, hupdated⟩ := List.map_eq_singleton_iff.mp hbefore
  obtain ⟨y, hy, hupdated'⟩ := List.map_eq_singleton_iff.mp hafter
  obtain ⟨k, later, rfl, hlater, -, -, hprecedes⟩ := hforward 0 x (by rw [hx]; rfl)
  rw [hy] at hlater
  cases hlater
  have hle := hprecedes.updated
  rw [Option.some.inj hupdated, Option.some.inj hupdated'] at hle
  exact absurd hle (by decide)

end Board
end StatusBoard

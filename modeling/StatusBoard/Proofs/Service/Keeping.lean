import StatusBoard.Proofs.Service.Damage
import StatusBoard.Proofs.Service.Showing
import StatusBoard.Proofs.Store.Contention
set_option autoImplicit false

/-!
# Service: what is answered is what was stored

A write is answered with what is read back of the row that it made.  That is what it was asked to
store, except for what a row has no room for: fractions of microseconds in its own times, those of
conditions being kept in full, and the last digits of numbers with a fraction in opaque data.
Whoever reads later reads the same row.
-/

namespace StatusBoard

open Json (Value)

/-! ## Requests -/

/-- What the request brings is held as it should be: labels and opaque objects have their members in
order, and numbers are in range. -/
def Request.IsTidy : Request → Prop
  | .create _ new => new.labels.Sorted ∧ new.spec.IsTidy
  | .report _ r => ∀ v ∈ r.data, v.IsTidy
  | .get _ | .delete _ | .setConditions .. | .getStatus _ | .listStatuses .. | .search .. => True

theorem Request.IsTidy.isOrdered {request : Request} (h : request.IsTidy) : request.IsOrdered := by
  cases request with
  | create kind new => exact h.1
  | get _ | delete _ | setConditions _ _ _ | report _ _ | getStatus _ | listStatuses _ _ _
  | search _ _ _ _ => trivial

/-! ## What is kept of opaque data -/

/-- What is read of the text of opaque data, if there is any. -/
theorem StatusColumns.blurred_of_jsonOf {written read : Option Value} {raw : Option String}
    {what : String} (hraw : Cell.ofText? (written.map (·.render)) = .ofText? raw)
    (hread : jsonOf Json.readValue what raw = .ok read) (htidy : ∀ v ∈ written, v.IsTidy) :
    read.map Value.blurred = written.map Value.blurred := by
  have hdecoded := map_decode?_of_jsonOf hraw hread
  cases written with
  | none => rw [Option.map_eq_none_iff.mp hdecoded.symm]
  | some v =>
      obtain ⟨w, rfl, hw⟩ := Option.map_eq_some_iff.mp hdecoded.symm
      rw [Option.map_some, Option.map_some, (htidy v rfl).blurred_of_decode? hw.symm]

/-! ## Reports -/

/-- A status keeps a report that was stamped with a time, over the conditions that were there before:
the generation, the data and the metadata are the report's, absent ones too, the time is kept to the
microsecond, and the conditions as they were made. -/
structure Report.IsKept (r : Report) (stamp : Instant) (previous : Option Document)
    (status : AdapterStatus) : Prop where
  observedGeneration : status.observedGeneration = r.observedGeneration
  data : status.data.map Value.blurred = r.data.map Value.blurred
  exact : (∀ v ∈ r.data, v.isWhole = true) → status.data = r.data
  metadata : status.metadata = r.metadata
  lastReportTime : status.lastReportTime = stamp.truncateMicros
  conditions : status.conditions =
    (Document.sent r.conditions r.observedGeneration stamp).mergedOver previous stamp

/-- A row into which a report was written is read as a status that keeps it. -/
theorem StatusRow.Carries.isKept {row : StatusRow} {r : Report} {now : Instant}
    {existing : Option StatusRecord} (h : row.Carries (r.writeOver now existing))
    (hnodup : (r.conditions.map (·.type)).Nodup) (htidy : ∀ v ∈ r.data, v.IsTidy)
    {record : StatusRecord} (hread : StatusRecord.ofRow row = .ok record) {status : AdapterStatus}
    (hstatus : record.toStatus = .ok status) :
    r.IsKept (Report.stamp now existing) (Document.previousOf (existing.map (·.conditions)))
      status := by
  have hparse := Report.parse_writeOver hnodup now existing
  obtain ⟨-, ⟨raw, hraw, hdata⟩, -⟩ := StatusRecord.ofRow_eq_ok_iff.mp hread
  have hblurred : status.data.map Value.blurred = r.data.map Value.blurred := by
    obtain ⟨d, hd, rfl⟩ := StatusRecord.toStatus_eq_ok_iff.mp hstatus
    exact StatusColumns.blurred_of_jsonOf (h.data.symm.trans hraw) hdata htidy
  rw [← StatusRow.carries_iff.mp h] at hread
  change StatusRecord.ofRow (r.rowOver row _ (Report.stamp now existing)) = .ok record at hread
  have hreads := Report.reads_rowOver hread hstatus hparse
  exact {
    observedGeneration := congrArg AdapterStatus.observedGeneration hreads
    data := hblurred
    exact := Json.eq_of_map_blurred_eq hblurred
    metadata := congrArg AdapterStatus.metadata hreads
    lastReportTime := congrArg AdapterStatus.lastReportTime hreads
    conditions := congrArg AdapterStatus.conditions hreads }

/-- What a report writes is in the row of its key afterwards. -/
theorem Store.Writes.carries {s draft : Store} {written : List StatusKey}
    (hconsistent : s.Consistent written) {spec : KindSpec} {r : Report} {now : Instant}
    {key : StatusKey} {id : Uuid} {isNew : Bool}
    (h : Store.Writes (Board.planner spec r now) key id s draft isNew) {row : StatusRow}
    (hfind : draft.findStatus? key = some row) :
    (r.conditions.map (·.type)).Nodup ∧ ∃ existing, s.getStatus .never key = .ok existing ∧
      row.Carries (r.writeOver now existing) := by
  have hnever : Cancellation.never ≠ .before := by decide
  cases h with
  | insert plan fresh absent =>
      obtain ⟨-, hnodup, rfl⟩ := Board.planner_eq_write_iff.mp plan
      rw [findStatus?_withStatus absent] at hfind
      cases hfind
      exact ⟨hnodup, none, getStatus_of_absent hnever absent, ⟨rfl, rfl, rfl, rfl, rfl⟩⟩
  | @update _ _ old previous plan found read numbered =>
      obtain ⟨-, hnodup, rfl⟩ := Board.planner_eq_write_iff.mp plan
      have hold := List.mem_of_find?_eq_some found
      have hlive := findStatus?_isLive found
      obtain ⟨record, hrecord⟩ := hconsistent.readable old hold hlive
      cases (StatusRecord.ofRowForUpdate_of_ofRow hrecord).symm.trans read
      have hnumbered := Consistent.isNumbered_of_read hconsistent.distinct hold hlive
        (StatusRecord.says_of_ofRow hrecord)
      rw [findStatus?_overwritten_of_isNumbered found hnumbered] at hfind
      cases hfind
      exact ⟨hnodup, some previous, getStatus_of_found hnever found hrecord,
        ⟨rfl, rfl, rfl, rfl, rfl⟩⟩

/-! ## Resources -/

/-- A resource keeps what it was asked for with. -/
structure NewResource.IsKept (new : NewResource) (kind : String) (x : Resource) : Prop where
  kind : x.kind = kind
  name : x.name = new.name
  labels : x.labels = new.labels
  spec : x.spec.blurred = new.spec.blurred
  exact : new.spec.isWhole = true → x.spec = new.spec

/-- A row that a creation made is read as a resource that keeps what the creation asked for, whatever
was done to its conditions since. -/
theorem ResourceRow.SharesOrigin.isKept {row : ResourceRow} {new : NewResource} {id : Uuid}
    {kind : String} {now : Instant} (h : row.SharesOrigin (new.toRow id kind now))
    (hsorted : new.labels.Sorted) (htidy : new.spec.IsTidy) {x : Resource}
    (hread : Resource.ofRow row = .ok x) : x.id = id ∧ new.IsKept kind x := by
  have hcells := Resource.ofRow_eq_ok_iff.mp hread
  have hlabels := Cell.read_eq h.labels hcells.labels
  have hspec := htidy.blurred_of_decode? (Cell.read_eq h.spec hcells.spec)
  rw [decode?_writeTexts, Dict.ofPairs_of_sorted hsorted, Option.some.injEq] at hlabels
  exact ⟨Uuid.eq_of_read h.id hcells.id, {
    kind := Cell.text.inj (hcells.kind.symm.trans h.kind)
    name := Cell.text.inj (hcells.name.symm.trans h.name)
    labels := hlabels.symm
    spec := hspec
    exact := Value.eq_of_blurred_eq hspec }⟩

/-- A row whose conditions were set is read as the same resource with other conditions. -/
theorem Resource.eq_of_withConditions {row : ResourceRow} {old x : Resource} {d : Document}
    {now : Instant} (hold : ofRow row = .ok old) (hdistinct : d.HasDistinctTypes)
    (hread : ofRow (Store.withConditions d.render now row) = .ok x) :
    x = { old with statusConditions := d, updatedTime := now.truncateMicros } := by
  have hcells := ofRow_eq_ok_iff.mp hold
  obtain ⟨raw, hraw, htime⟩ := (ofRow_eq_ok_iff.mp hread).updatedTime
  cases hraw
  rw [Instant.eq_truncateMicros_of_parseStrict? htime] at htime
  refine Except.ok.inj (hread.symm.trans (ofRow_eq_ok_iff.mpr ?_))
  exact {
    id := hcells.id
    kind := hcells.kind
    name := hcells.name
    labels := hcells.labels
    spec := hcells.spec
    generation := hcells.generation
    statusConditions := ⟨_, rfl, Document.parse_render_of_distinct hdistinct⟩
    createdTime := hcells.createdTime
    updatedTime := ⟨_, rfl, htime⟩ }

/-! ## Answers -/

namespace Board

/-- A report is answered with a status of its key that keeps it over what was there, and that reads
show from then on. -/
structure KeepsReport (b : Board) (c : Call) (before after : Store) (resource : ResourceRef)
    (r : Report) (status : AdapterStatus) : Prop where
  key : status.key = .of resource r.adapter
  kept : ∃ existing, before.getStatus .never (.of resource r.adapter) = .ok existing ∧
    r.IsKept (Report.stamp c.now existing) (Document.previousOf (existing.map (·.conditions))) status
  shown : b.ShowsStatus after status

/-- A creation is answered with a new resource that keeps what it was asked for with, and that reads
show from then on. -/
structure KeepsNew (b : Board) (c : Call) (after : Store) (kind : String) (new : NewResource)
    (x : Resource) : Prop where
  id : x.id = c.freshId
  kept : new.IsKept kind x
  generation : x.generation = 1
  statusConditions : x.statusConditions = .empty
  createdTime : x.createdTime = c.now.truncateMicros
  updatedTime : x.updatedTime = c.now.truncateMicros
  shown : b.ShowsResource after x

/-- A setting of conditions is answered with the resource as it was but for the conditions, which
are set over those that it had, and the time.  It still keeps what it was created with by one of the
calls, and reads show it from then on. -/
structure KeepsConditions (b : Board) (calls : List Call) (c : Call) (before after : Store)
    (resource : ResourceRef) (generation : Int64) (conditions : List ConditionInput) (x : Resource) :
    Prop where
  named : ⟨x.kind, x.id.toText⟩ = resource
  given : ∃ old, before.getResource .never resource = .ok (some old) ∧
    x = { old with
      statusConditions := (Document.sent conditions generation c.now).mergedOver
        (some old.statusConditions) c.now
      updatedTime := c.now.truncateMicros }
  kept : ∃ creation ∈ calls, ∃ new, creation.request = .create resource.kind new ∧
    x.id = creation.freshId ∧ new.IsKept resource.kind x
  shown : b.ShowsResource after x

variable {b : Board} {calls : List Call} {c : Call} {s : Store}

theorem keepsReport (hintact : s.IsIntact) (hafter : (b.answer s c).store.IsIntact)
    {resource : ResourceRef} {r : Report} (hrequest : c.request = .report resource r)
    (htidy : ∀ v ∈ r.data, v.IsTidy) {status : AdapterStatus} {isNew : Bool}
    (hresult : (b.answer s c).result = .ok (.outcome (.stored status isNew))) :
    b.KeepsReport c s (b.answer s c).store resource r status := by
  obtain ⟨spec, row, record, hspec, -, howner, hwrites, hfind, hread, hstatus⟩ :=
    (b.ends_answer c s).stored_of_result hrequest hresult
  obtain ⟨written, hconsistent⟩ := hintact.consistent
  obtain ⟨hnodup, existing, hexisting, hcarries⟩ := hwrites.carries hconsistent hfind
  have hshows : (b.answer s c).store.Shows (StatusKey.of resource r.adapter).owner := by
    rw [Store.Shows, hwrites.resources_eq]
    exact Store.isSome_findResource?_iff.mp howner
  obtain ⟨hkey, hshown⟩ := hafter.showsStatus hspec hshows hfind hread hstatus
  exact ⟨hkey, ⟨existing, hexisting, hcarries.isKept hnodup htidy hread hstatus⟩, hshown⟩

theorem keepsNew (hafter : (b.answer s c).store.IsIntact) {kind : String} {new : NewResource}
    (hrequest : c.request = .create kind new) (hsorted : new.labels.Sorted)
    (htidy : new.spec.IsTidy) {x : Resource}
    (hresult : (b.answer s c).result = .ok (.resource x)) :
    b.KeepsNew c (b.answer s c).store kind new x := by
  obtain ⟨⟨spec, hspec⟩, -, hfree, hstore, hread⟩ :=
    (b.ends_answer c s).created_of_result hrequest hresult
  obtain ⟨hid, hkept⟩ :=
    (ResourceRow.SharesOrigin.refl (new.toRow c.freshId kind c.now)).isKept hsorted htidy hread
  have hcells := Resource.ofRow_eq_ok_iff.mp hread
  have hfind : (b.answer s c).store.findResource? ⟨x.kind, x.id.toText⟩ =
      some (new.toRow c.freshId kind c.now) := by
    rw [hstore, hkept.kind, hid]
    exact Store.findResource?_withResource hfree
  have hconditions := Cell.read_eq rfl hcells.statusConditions
  rw [Document.parse_empty, Except.ok.injEq] at hconditions
  exact {
    id := hid
    kept := hkept
    generation := (Cell.int.inj hcells.generation).symm
    statusConditions := hconditions.symm
    createdTime := Instant.eq_truncateMicros_of_parseStrict? (Cell.read_eq rfl hcells.createdTime)
    updatedTime := Instant.eq_truncateMicros_of_parseStrict? (Cell.read_eq rfl hcells.updatedTime)
    shown := hafter.showsResource (hkept.kind ▸ hspec) hfind hread }

theorem keepsConditions (hintact : (b.run calls).1.IsIntact)
    (hafter : (b.answer (b.run calls).1 c).store.IsIntact)
    (htidy : ∀ other ∈ calls, other.request.IsTidy) {resource : ResourceRef} {generation : Int64}
    {conditions : List ConditionInput}
    (hrequest : c.request = .setConditions resource generation conditions) {x : Resource}
    (hresult : (b.answer (b.run calls).1 c).result = .ok (.resource x)) :
    b.KeepsConditions calls c (b.run calls).1 (b.answer (b.run calls).1 c).store resource generation
      conditions x := by
  obtain ⟨row, raw, hnodup, -, hfind, htext, hstore, hread⟩ :=
    (b.ends_answer c _).conditioned_of_result hrequest hresult
  obtain ⟨old, hgiven⟩ := hintact.getResource hfind
  obtain ⟨row', hfind', hold⟩ := Store.getResource_never_eq_ok_iff.mp hgiven
  cases hfind.symm.trans hfind'
  have hprevious : Document.previousOf (some raw) = some old.statusConditions :=
    Document.previousOf_some_of_parse
      (Cell.read_eq htext (Resource.ofRow_eq_ok_iff.mp hold).statusConditions)
  have hdistinct : (Document.setOver conditions generation c.now raw).HasDistinctTypes :=
    (Document.hasDistinctTypes_sent hnodup generation c.now).mergedOver _ _
  have hx := Resource.eq_of_withConditions hold hdistinct hread
  rw [Document.setOver, hprevious] at hx
  -- The row goes back to the call that created it.
  obtain ⟨creation, hcreation, kind, new, hadmits, hshares⟩ :=
    b.origin_of_run calls (List.mem_of_find?_eq_some hfind)
  obtain ⟨hkind, hid, -⟩ := ResourceRow.isOf_iff.mp (Store.findResource?_isOf hfind)
  cases Cell.text.inj (hkind.symm.trans hshares.kind)
  have hnew := htidy creation hcreation
  rw [hadmits.request] at hnew
  obtain ⟨hxid, hkept⟩ :=
    ((ResourceRow.sharesOrigin_withConditions _ c.now row).trans hshares).isKept hnew.1 hnew.2 hread
  have hnamed : ⟨x.kind, x.id.toText⟩ = resource := by
    rw [hkept.kind, hxid, ← Cell.text.inj (hid.symm.trans hshares.id)]
  obtain ⟨spec, hspec⟩ := hadmits.known
  have hfound : (b.answer (b.run calls).1 c).store.findResource? ⟨x.kind, x.id.toText⟩ =
      some (Store.withConditions (Document.setOver conditions generation c.now raw).render c.now
        row) := by
    rw [hnamed, hstore]
    exact Store.findResource?_setConditions _ _ hfind
  exact {
    named := hnamed
    given := ⟨old, hgiven, hx⟩
    kept := ⟨creation, hcreation, new, hadmits.request, hxid, hkept⟩
    shown := hafter.showsResource (hkept.kind ▸ hspec) hfound hread }

/-- After any calls, a report that is answered as stored is kept in the status that the answer has,
resources that are created keep what they were asked for with, and conditions that are set are kept
over those that were there; and all of them are shown by the reads that come next as they were
answered. -/
theorem answers_are_kept (b : Board) {calls : List Call} {c : Call}
    (htidy : ∀ other ∈ calls ++ [c], other.request.IsTidy) :
    let before := (b.run calls).1
    let reply := b.answer before c
    (∀ resource r status isNew, c.request = .report resource r →
      reply.result = .ok (.outcome (.stored status isNew)) →
        b.KeepsReport c before reply.store resource r status) ∧
    (∀ kind new x, c.request = .create kind new → reply.result = .ok (.resource x) →
      b.KeepsNew c reply.store kind new x) ∧
    ∀ resource generation conditions x, c.request = .setConditions resource generation conditions →
      reply.result = .ok (.resource x) →
        b.KeepsConditions calls c before reply.store resource generation conditions x := by
  have hordered : ∀ other ∈ calls ++ [c], other.request.IsOrdered :=
    fun other hother => (htidy other hother).isOrdered
  have hintact : (b.run calls).1.IsIntact :=
    b.isIntact_run fun other hother => hordered other (List.mem_append_left _ hother)
  have hafter := b.isIntact_run hordered
  rw [b.run_snoc] at hafter
  have hasked : c.request.IsTidy := htidy c (List.mem_append_right _ List.mem_cons_self)
  refine ⟨?_, ?_, ?_⟩
  · intro resource r status isNew hrequest hresult
    rw [hrequest] at hasked
    exact keepsReport hintact hafter hrequest hasked hresult
  · intro kind new x hrequest hresult
    rw [hrequest] at hasked
    exact keepsNew hafter hrequest hasked.1 hasked.2 hresult
  · intro resource generation conditions x hrequest hresult
    exact keepsConditions hintact hafter
      (fun other hother => htidy other (List.mem_append_left _ hother)) hrequest hresult

/-- A report as it is received: all that is mandatory holds, and there is data. -/
def receivedText : String :=
  "\x7b\"adapter\":\"a1\",\"observedGeneration\":2,\"data\":\x7b\"b\":[1],\"a\":null\x7d," ++
  "\"conditions\":[\x7b\"type\":\"Applied\",\"status\":\"True\"\x7d," ++
  "\x7b\"type\":\"Available\",\"status\":\"True\"\x7d," ++
  "\x7b\"type\":\"Health\",\"status\":\"True\"\x7d]\x7d"

/-- A report comes in place of the doubtful one. -/
def arrival (r : Report) : Call :=
  { doubtfulCall with request := .report ⟨"Cluster", (default : Uuid).toText⟩ r }

theorem answers_are_kept_sample :
    ∃ r, Json.decode? Report.read receivedText = some r ∧
      let before := (sampleBoard.run (sampleReports.take 2)).1
      let reply := sampleBoard.answer before (arrival r)
      ∃ status isNew, reply.result = .ok (.outcome (.stored status isNew)) ∧
        sampleBoard.KeepsReport (arrival r) before reply.store ⟨"Cluster", (default : Uuid).toText⟩ r
          status := by
  obtain ⟨r, hr, haccepted⟩ := (Option.any_eq_true _ _).mp
    (show ((Json.decode? Report.read receivedText).any fun r => decide (r.validate = .ok () ∧
      passesMandatory r.conditions KindRegistry.usualMandatory = .ok ())) = true by decide +kernel)
  obtain ⟨hvalid, hopen⟩ := of_decide_eq_true haccepted
  have htidy : ∀ other ∈ sampleReports.take 2 ++ [arrival r], other.request.IsTidy := by
    intro other hother
    rcases List.mem_append.mp hother with hother | hother
    · rcases List.mem_pair.mp hother with rfl | rfl
      · exact ⟨.nil, .null⟩
      · rintro v ⟨⟩
    · rw [List.mem_singleton.mp hother]
      exact Report.isTidy_of_decode? hr
  have howner : ((sampleBoard.run (sampleReports.take 2)).1.findResource?
      ⟨"Cluster", (default : Uuid).toText⟩).isSome = true := by decide +kernel
  have hfresh : ∀ row ∈ (sampleBoard.run (sampleReports.take 2)).1.statuses,
      row.id ≠ .text doubtfulCall.freshId.toText := by decide +kernel
  have hyears : 0 ≤ doubtfulCall.now.date.year ∧ doubtfulCall.now.date.year ≤ 9999 := by decide
  obtain ⟨written, hconsistent⟩ := sampleBoard.consistent_run (sampleReports.take 2)
  have hgate : sampleBoard.AtGate (arrival r) (sampleBoard.run (sampleReports.take 2)).1
      ⟨"Cluster", (default : Uuid).toText⟩ r ⟨KindRegistry.usualMandatory⟩ :=
    ⟨rfl, rfl, hvalid, rfl, howner⟩
  obtain ⟨status, isNew, hstored, -⟩ := hgate.answer_of_open hopen hconsistent
    (sampleBoard.tells_run _) hfresh (Report.isReceivable_of_decode? hr).isReadable hyears
  exact ⟨r, hr, status, isNew, hstored,
    (answers_are_kept sampleBoard htidy).1 _ r status isNew rfl hstored⟩

end Board
end StatusBoard

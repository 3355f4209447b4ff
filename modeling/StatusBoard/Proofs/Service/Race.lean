import StatusBoard.Proofs.Instant.Order
import StatusBoard.Proofs.Service.Failure
import StatusBoard.Proofs.Store.Contention
set_option autoImplicit false

/-!
# Service: reports that race

Of two first reports on a key, one is inserted and the other loses.  The one that loses is merged
over the one that won, as if it had come later: nothing of the history that the other began is lost,
and its time is not before that of the other.
-/

namespace StatusBoard

/-- A status is a report merged over what the plan was shown, and is stamped no earlier. -/
structure Report.MergesOver (r : Report) (now : Instant) (shown : Option StatusRecord)
    (status : AdapterStatus) : Prop where
  conditions : status.conditions =
    (Document.sent r.conditions r.observedGeneration (stamp now shown)).mergedOver
      (Document.previousOf (shown.map (·.conditions))) (stamp now shown)
  stamped : ∀ previous ∈ shown, previous.lastReportTime ≤ stamp now shown

theorem Report.le_stamp (now : Instant) {shown : Option StatusRecord} :
    ∀ previous ∈ shown, previous.lastReportTime ≤ stamp now shown := by
  rintro previous ⟨⟩
  exact Instant.le_latest_right now previous.lastReportTime

/-- What an upsert that merged has stored of a report is the report merged over what
the plan was shown last. -/
theorem UpsertAnswer.Merges.mergesOver {ans : UpsertAnswer} {spec : KindSpec} {r : Report}
    {now : Instant} {key : StatusKey} {base : Store} {inserted : Bool} {record : StatusRecord}
    {earlier : List (Option StatusRecord)} {shown : Option StatusRecord} {w : StatusWrite}
    {row : StatusRow}
    (h : ans.Merges (Board.planner spec r now) key base inserted record earlier shown w row)
    {status : AdapterStatus} (hstatus : record.toStatus = .ok status) :
    r.MergesOver now shown status := by
  obtain ⟨-, hnodup, rfl⟩ := Board.planner_eq_write_iff.mp h.plan
  have hconditions : record.conditions = (r.writeOver now shown).conditions :=
    Cell.text.inj ((StatusRecord.says_of_ofRow h.read).conditions.symm.trans h.carries.conditions)
  obtain ⟨d, hparse, rfl⟩ := StatusRecord.toStatus_eq_ok_iff.mp hstatus
  rw [hconditions, Report.parse_writeOver hnodup] at hparse
  exact ⟨(Except.ok.inj hparse).symm, Report.le_stamp now⟩

namespace Board

theorem reportOutcome_eq_stored {spec : KindSpec} {r : Report} {outcome : UpsertOutcome}
    {status : AdapterStatus} {isNew : Bool}
    (h : reportOutcome spec r outcome = .ok (.stored status isNew)) :
    ∃ record, outcome = Store.writtenOutcome isNew record ∧ record.toStatus = .ok status := by
  cases outcome with
  | skipped => cases h
  | inserted record | updated record =>
      obtain ⟨found, hfound, hstored⟩ := bind_eq_ok_iff.mp h
      cases hstored
      exact ⟨record, rfl, mapError_eq_ok_iff.mp hfound⟩

/-- A report is stored by an upsert with the report's plan. -/
theorem report_eq_stored {b : Board} {c : Circumstances} {s : Store} {resource : ResourceRef}
    {r : Report} {status : AdapterStatus} {isNew : Bool}
    (h : (b.report c s resource r).result = .ok (.stored status isNew)) :
    ∃ spec record, b.resolve resource.kind = .ok spec ∧
      (s.upsertStatus c.cancel (.of resource r.adapter) c.freshId (planner spec r c.now)
        c.contention).result = .ok (Store.writtenOutcome isNew record) ∧
      record.toStatus = .ok status := by
  unfold report at h
  cases hspec : b.resolve resource.kind with
  | error e =>
      rw [hspec] at h
      cases h
  | ok spec =>
      cases hvalid : r.validate with
      | error e =>
          rw [hspec, hvalid] at h
          cases h
      | ok valid =>
          rw [hspec, hvalid] at h
          obtain ⟨outcome, hresult, hstored⟩ := bind_eq_ok_iff.mp h
          obtain ⟨record, rfl, hstatus⟩ := reportOutcome_eq_stored hstored
          exact ⟨spec, record, rfl, mapError_eq_ok_iff.mp hresult, hstatus⟩

/-- An insertion that loses becomes a merge over what won.  Whatever rows the tables hold, damaged
or not, and whatever other writers add just before an insertion: an upsert that is answered with a
record has merged over the store that the last call of its plan was about, in which a rival, if one
came, has the row of the key.  It has not exactly if it has missed: the row that it was to overwrite
has its identity not in the written form, and another row has.  A report that is stored and has not
missed is merged over what its plan was shown last, and is stamped no earlier. -/
theorem lost_insertion_merges {s : Store} {key : StatusKey} {contention : Nat → Contention}
    (hschema : StatusRow.ObeySchema s.statuses) (hadmits : s.Admits key contention)
    (cancel : Cancellation) (id : Uuid) :
    (∀ planner inserted r ans, ans = s.upsertStatus cancel key id planner contention →
      ans.result = .ok (Store.writtenOutcome inserted r) →
        (∀ attempt reason rival, ans.calls.length = attempt + 2 →
          contention attempt = .lost reason (some rival) →
            (s.metBy contention ans).findStatus? key = some rival) ∧
        (ans.HasMerged planner key (s.metBy contention ans) inserted r ↔
          ¬ ans.HasMissed planner key (s.metBy contention ans))) ∧
    ∀ (b : Board) (now : Instant) (resource : ResourceRef) (report : Report)
      (status : AdapterStatus) (isNew : Bool), key = .of resource report.adapter →
      (b.report ⟨now, id, cancel, contention⟩ s resource report).result =
        .ok (.stored status isNew) →
      ∃ spec r ans, b.resolve resource.kind = .ok spec ∧ r.toStatus = .ok status ∧
        ans = s.upsertStatus cancel key id (planner spec report now) contention ∧
        ans.result = .ok (Store.writtenOutcome isNew r) ∧
        (¬ ans.HasMissed (planner spec report now) key (s.metBy contention ans) →
          ∃ earlier shown w row,
            ans.Merges (planner spec report now) key (s.metBy contention ans) isNew r earlier shown
              w row ∧
            report.MergesOver now shown status) := by
  constructor
  · intro planner inserted r ans hans hresult
    exact Store.upsertStatus_merges_iff hschema hadmits hans hresult
  · rintro b now resource report status isNew rfl hstored
    obtain ⟨spec, r, hspec, hresult, hstatus⟩ := report_eq_stored hstored
    refine ⟨spec, r, _, hspec, hstatus, rfl, hresult, ?_⟩
    intro hnone
    obtain ⟨earlier, shown, w, row, h⟩ :=
      (Store.upsertStatus_merges_iff hschema hadmits rfl hresult).2.mpr hnone
    exact ⟨earlier, shown, w, row, h, h.mergesOver hstatus⟩

/-- The cluster, of which nothing has been reported yet. -/
def raceStore : Store :=
  { strayStore with statuses := [] }

/-- What two writers are about to report on. -/
def raceKey : StatusKey :=
  .of ⟨"Cluster", "00000000-0000-4000-8000-000000000001"⟩ "a2"

/-- The row of the one that wins. -/
def rivalRow : StatusRow :=
  strayRow (default : Uuid).toText "a2" "[]"

/-- The other writer comes before the first insertion. -/
def raceContention : Nat → Contention
  | 0 => .lost "UNIQUE constraint failed" (some rivalRow)
  | _ => .clear

/-- Whatever is stored, one thing is written. -/
def racePlanner : Planner := fun _ _ =>
  ⟨.write {
    observedGeneration := 2, conditions := "[]", data := none, metadata := none, now := default },
    false⟩

/-- The upsert was answered with a row that was there before. -/
def isUpdated (ans : UpsertAnswer) : Bool :=
  match ans.result with
  | .ok (.updated _) => true
  | _ => false

theorem exists_of_isUpdated {ans : UpsertAnswer} (h : isUpdated ans = true) :
    ∃ r, ans.result = .ok (Store.writtenOutcome false r) := by
  unfold isUpdated at h
  split at h
  · rename_i r hresult
    exact ⟨r, hresult⟩
  · cases h

theorem lost_insertion_merges_sample :
    ∃ r ans, ans = raceStore.upsertStatus .never raceKey default racePlanner raceContention ∧
      ans.calls.length = 2 ∧
      ans.HasMerged racePlanner raceKey (raceStore.metBy raceContention ans) false r := by
  have hadmits : raceStore.Admits raceKey raceContention := by
    refine ⟨?_, by simp [raceStore]⟩
    rintro (_ | attempt) reason r hlost
    · cases hlost
      decide
    · cases hlost
  obtain ⟨r, hresult⟩ := exists_of_isUpdated
    (show isUpdated (raceStore.upsertStatus .never raceKey default racePlanner raceContention) = true
      by decide +kernel)
  have hcalls : (raceStore.upsertStatus .never raceKey default racePlanner
      raceContention).calls.length = 2 := by
    decide +kernel
  obtain ⟨hrival, hmerges⟩ := (lost_insertion_merges ⟨.nil, .nil⟩ hadmits .never default).1
    racePlanner false r _ rfl hresult
  refine ⟨r, _, rfl, hcalls, hmerges.mpr ?_⟩
  rintro ⟨earlier, previous, w, row, other, hmisses⟩
  cases hmisses.found.symm.trans (hrival 0 _ rivalRow hcalls rfl)
  exact hmisses.misspelt
    (congrArg (fun u : Uuid => Cell.text u.toText) (Uuid.eq_of_read rfl hmisses.shown.columns.id).symm)

/-- The row of the adapter `a2` has the identity of the other row, in braces; nothing else is
damaged. -/
def misspeltStore : Store :=
  { strayStore with statuses := [
      strayRow "00000000-0000-4000-8000-000000abcdef" "a1" "[]",
      strayRow "\x7b00000000-0000-4000-8000-000000abcdef\x7d" "a2" "[]"] }

/-- The upsert for `a2` is answered with its row, which is what it was; the row of `a1` is
overwritten. -/
theorem misspelt_upsert_misses :
    ¬ ∀ (s : Store) (key : StatusKey) (contention : Nat → Contention) (cancel : Cancellation)
      (id : Uuid) (planner : Planner) (inserted : Bool) (r : StatusRecord) (ans : UpsertAnswer),
      StatusRow.ObeySchema s.statuses → s.Admits key contention →
      ans = s.upsertStatus cancel key id planner contention →
      ans.result = .ok (Store.writtenOutcome inserted r) →
        ans.HasMerged planner key (s.metBy contention ans) inserted r := by
  intro h
  have hadmits : misspeltStore.Admits raceKey fun _ => .clear := by
    refine ⟨Store.contests_clear raceKey, ?_⟩
    intro attempt reason r hlost
    cases hlost
  obtain ⟨r, hresult⟩ := exists_of_isUpdated
    (show isUpdated (misspeltStore.upsertStatus .never raceKey default racePlanner fun _ => .clear) =
      true by decide +kernel)
  have hrow : ((misspeltStore.upsertStatus .never raceKey default racePlanner fun _ => .clear
      ).store.statuses.filter (·.isOf raceKey)).map (·.observedGeneration) = [.int 1] := by
    decide +kernel
  obtain ⟨earlier, shown, w, row, hmerges⟩ := h misspeltStore raceKey (fun _ => .clear) .never
    default racePlanner false r _ ⟨by decide, by decide⟩ hadmits rfl hresult
  rw [hmerges.only, List.map_singleton, List.singleton_inj, hmerges.carries.observedGeneration]
    at hrow
  have hplan := hmerges.plan
  cases hplan
  cases hrow

end Board
end StatusBoard

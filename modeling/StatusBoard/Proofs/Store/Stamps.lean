import StatusBoard.Proofs.Instant.RoundTrip
import StatusBoard.Proofs.Store.Effect
import StatusBoard.Proofs.Store.Resources
set_option autoImplicit false

/-!
# Store: the times that rows hold

An instant of the years 0 to 9999 is read back from a row, by the strict reader and by the relaxed one, as
what it is to the microsecond.  The text of any other instant is no timestamp.  Operations read their row
again before anything counts, so none of them stores a row with such a text.
-/

namespace StatusBoard

/-- A row of statuses holds the text of the instant as one of the times that are read. -/
def StatusRow.IsStamped (r : StatusRow) (t : Instant) : Prop :=
  r.createdTime = .text t.toStorageText ∨ r.lastReportTime = .text t.toStorageText

/-- A row of resources holds the text of the instant as one of the times that are read. -/
def ResourceRow.IsStamped (r : ResourceRow) (t : Instant) : Prop :=
  r.createdTime = .text t.toStorageText ∨ r.updatedTime = .text t.toStorageText

/-- Whatever a plan says to write, it says so at the instant. -/
def Planner.StampsWith (planner : Planner) (t : Instant) : Prop :=
  ∀ earlier existing w, (planner earlier existing).plan = .write w → w.now = t

section Unreadable

variable {t : Instant} (hunreadable : Instant.parseStrict? t.toStorageText = none)
include hunreadable

/-- A cell that is read as a time does not hold a text that is no timestamp. -/
theorem Cell.ne_of_read {cell : Cell} {u : Instant}
    (hread : ∃ raw, cell = .text raw ∧ Instant.parseStrict? raw = some u) :
    cell ≠ .text t.toStorageText := by
  intro hcell
  have hparse := Cell.read_eq hcell hread
  rw [hunreadable] at hparse
  cases hparse

theorem StatusRow.Says.not_isStamped {r : StatusRow} {record : StatusRecord} (h : r.Says record) :
    ¬ r.IsStamped t := by
  rintro (hcreated | hlast)
  · exact Cell.ne_of_read hunreadable h.createdTime hcreated
  · exact Cell.ne_of_read hunreadable h.lastReportTime hlast

theorem ResourceRow.Says.not_isStamped {r : ResourceRow} {resource : Resource}
    (h : r.Says resource) : ¬ r.IsStamped t := by
  rintro (hcreated | hupdated)
  · exact Cell.ne_of_read hunreadable h.createdTime hcreated
  · exact Cell.ne_of_read hunreadable h.updatedTime hupdated

end Unreadable

namespace Store

/-! ## What is read again -/

/-- What a plan writes with a stamp is found in the row of its key, unless that row has its identity not in
the written form. -/
theorem isStamped_of_writes {planner : Planner} {key : StatusKey} {id : Uuid} {base draft : Store}
    {inserted : Bool} {row : StatusRow} {record : StatusRecord} {t : Instant}
    (hwrites : Writes planner key id base draft inserted) (hstamps : planner.StampsWith t)
    (hfind : draft.findStatus? key = some row) (hrecord : row.Says record) :
    row.IsStamped t ∨ row.id ≠ .text record.id.toText := by
  cases hwrites with
  | insert plan fresh absent =>
      rw [findStatus?_withStatus absent] at hfind
      cases hfind
      exact .inl (.inl (hstamps _ _ _ plan ▸ rfl))
  | update plan found read numbered =>
      rw [findStatus?_overwritten, found, Option.map_some, Option.some.injEq] at hfind
      split at hfind
      · cases hfind
        exact .inl (.inr (hstamps _ _ _ plan ▸ rfl))
      · rename_i hother
        subst hfind
        -- The row of the key is not the one that was hit, though it has been read as having its identity.
        have hprevious := (StatusRecord.says_of_ofRowForUpdate read).number?
        rw [hrecord.number?] at hprevious
        refine .inr fun hid => hother ?_
        simp [isNumbered, ← Option.some.inj hprevious, hid, findStatus?_isLive found]

/-- Operations that read their row again never store it with the text of the instant.  Those that stamp
their row with it fail; but an upsert whose key has a row with its identity not in the written form
writes over another row, and reads its own as it was. -/
structure NeverCommits (t : Instant) : Prop where
  created : ∀ (s : Store) (cancel : Cancellation) (id : Uuid) (kind : String) (new : NewResource)
    (now : Instant),
    (∃ e, s.createResource cancel id kind new now = ⟨s, .error e⟩) ∨ now ≠ t ∧
      ∃ row, (s.createResource cancel id kind new now).store.findResource? ⟨kind, id.toText⟩ =
        some row ∧ ¬ row.IsStamped t
  conditioned : ∀ (s : Store) (cancel : Cancellation) (resource : ResourceRef) (now : Instant)
    (replace : String → Replacement),
    (∃ e, s.updateConditions cancel resource now replace = ⟨s, .error e⟩) ∨ now ≠ t ∧
      ∃ row, (s.updateConditions cancel resource now replace).store.findResource? resource =
        some row ∧ ¬ row.IsStamped t
  reported : ∀ (s : Store) (cancel : Cancellation) (key : StatusKey) (id : Uuid) (planner : Planner)
    (contention : Nat → Contention),
    (s.upsertStatus cancel key id planner contention).store = s ∨
      ∃ row, (s.upsertStatus cancel key id planner contention).store.findStatus? key = some row ∧
        ¬ row.IsStamped t ∧
        (planner.StampsWith t → ∃ number, row.number? = some number ∧ row.id ≠ .text number.toText)

theorem neverCommits_of_unreadable {t : Instant}
    (h : Instant.parseStrict? t.toStorageText = none) : NeverCommits t where
  created := by
    intro s cancel id kind new now
    obtain hfailed | ⟨created, hcreated, hfree, hread⟩ := s.createResource_cases cancel id kind new now
    · exact .inl hfailed
    · have hstamp := (Resource.ofRow_eq_ok_iff.mp hread).not_isStamped h
      refine .inr ⟨?_, _, ?_, hstamp⟩
      · rintro rfl
        exact hstamp (.inl rfl)
      · rw [hcreated]
        exact findResource?_withResource hfree
  conditioned := by
    intro s cancel resource now replace
    obtain hfailed | ⟨row, raw, updated, hupdated, hfind, -, hread⟩ :=
      s.updateConditions_cases cancel resource now replace
    · exact .inl hfailed
    · have hstamp := (Resource.ofRow_eq_ok_iff.mp hread).not_isStamped h
      refine .inr ⟨?_, _, ?_, hstamp⟩
      · rintro rfl
        exact hstamp (.inr rfl)
      · rw [hupdated]
        exact findResource?_setConditions _ now hfind
  reported := by
    intro s cancel key id planner contention
    obtain ⟨e, hanswer⟩ | hanswer | ⟨existing, draft, inserted, record, hstart, hrun, hanswer, -,
      row, hfind, hread⟩ := s.upsertStatus_ends cancel key id planner contention
    · exact .inl (congrArg Answer.store hanswer)
    · exact .inl (congrArg Answer.store hanswer)
    · have hrecord := StatusRecord.says_of_ofRow hread
      have hstamp := hrecord.not_isStamped h
      obtain ⟨base, hwrites⟩ := exists_writes _ _ _ _ _ (startUpsert_eq_ok hstart).2 hrun
      rw [hanswer]
      refine .inr ⟨row, hfind, hstamp, fun hstamps => ⟨record.id, hrecord.number?, ?_⟩⟩
      exact (isStamped_of_writes hwrites hstamps hfind hrecord).resolve_left hstamp

/-! ## All instants -/

/-- What rows hold of an instant of the years 0 to 9999 is read back to the microsecond, as what the
relaxed reader reads, and is written as the same text again.  What they would hold of any other instant
is refused, and no row with it is stored by an operation that reads the row again. -/
theorem stamps_are_read_back :
    (∀ t : Instant, 0 ≤ t.date.year ∧ t.date.year ≤ 9999 →
      Instant.parseStrict? t.toStorageText = some t.truncateMicros ∧
      Instant.parseRelaxed? t.toStorageText = some t.truncateMicros ∧
      (Instant.parseStrict? t.toStorageText).map Instant.toStorageText = some t.toStorageText ∧
      ∀ what, decodeTime what t.toStorageText = .ok t.truncateMicros) ∧
    ∀ t : Instant, ¬ (0 ≤ t.date.year ∧ t.date.year ≤ 9999) →
      Instant.parseStrict? t.toStorageText = none ∧
      (∀ what, decodeTime what t.toStorageText = .error (.corrupt (.time what t.toStorageText))) ∧
      NeverCommits t := by
  constructor
  · intro t hyears
    have hread := Instant.parseStrict?_toStorageText hyears
    refine ⟨hread, t.parseRelaxed?_toStorageText, ?_, fun what => decodeTime_eq_ok_iff.mpr hread⟩
    rw [hread, Option.map_some, Instant.toStorageText_truncateMicros]
  · intro t hyears
    have hread := Instant.parseStrict?_toStorageText_eq_none hyears
    refine ⟨hread, fun what => ?_, neverCommits_of_unreadable hread⟩
    simp only [decodeTime, hread]

/-- Within the leap second that ended the year 2016. -/
def sampleLeap : Instant :=
  (Instant.of? ((Date.of? 2016 12 31).get rfl) 86399 1123456789).get rfl

/-- The last second before the year 0. -/
def sampleEarly : Instant :=
  (Instant.of? ((Date.of? (-1) 12 31).get rfl) 86399 0).get rfl

theorem stamps_are_read_back_sample :
    Instant.parseStrict? "2016-12-31T23:59:60.123456Z" = some sampleLeap.truncateMicros ∧
      Instant.parseStrict? "-0001-12-31T23:59:59.000000Z" = none ∧
      ∀ id kind new, ∃ e,
        Store.empty.createResource .never id kind new sampleEarly = ⟨Store.empty, .error e⟩ := by
  have hleap : sampleLeap.toStorageText = "2016-12-31T23:59:60.123456Z" := by decide +kernel
  have hearly : sampleEarly.toStorageText = "-0001-12-31T23:59:59.000000Z" := by decide +kernel
  obtain ⟨hread, -⟩ := stamps_are_read_back.1 sampleLeap (by decide)
  obtain ⟨hrefused, -, hnever⟩ := stamps_are_read_back.2 sampleEarly (by decide)
  rw [hleap] at hread
  rw [hearly] at hrefused
  refine ⟨hread, hrefused, fun id kind new => ?_⟩
  exact (hnever.created .empty .never id kind new sampleEarly).resolve_right fun h => h.1 rfl

end Store
end StatusBoard

import StatusBoard.Proofs.Instant.TextOrder
import StatusBoard.Proofs.Service.Lookup
set_option autoImplicit false

/-!
# Service: resources are found by their times

A filter that compares a time of resources with a moment becomes a comparison of texts.  All rows
have times of the years 0 to 9999, but a moment is given with an offset, and in universal time it may be of
the year 10000, whose text comes before those of all rows.  Up to there the comparison of texts is
that of the times.
-/

namespace StatusBoard

open StatusBoard.Filter (Expr Comparison Relation Column Target)

/-- The columns of resources that hold times. -/
inductive TimeColumn where
  | created
  | updated
  deriving DecidableEq, Repr

namespace TimeColumn

/-- The column that filters ask for. -/
def column : TimeColumn → Column
  | created => .createdTime
  | updated => .updatedTime

/-- The comparison of the time with the text of a moment. -/
def comparison (c : TimeColumn) (r : Relation) (moment : String) : Comparison :=
  ⟨c.column.text, r, .text moment⟩

theorem ofField_text (c : TimeColumn) : Target.ofField c.column.text = .ok (.column c.column) := by
  cases c <;> decide +kernel

/-- The text of the comparison is read as a filter. -/
theorem parse_comparison (c : TimeColumn) (r : Relation) (moment : String) :
    Filter.parse (String.ofList (c.comparison r moment).toChars) =
      .ok (some (.compare (c.comparison r moment))) := by
  have hname : Filter.isFieldName c.column.text = true := by cases c <;> decide +kernel
  refine Filter.parse_of_spells ?_
  rw [String.toList_ofList]
  exact (Filter.Prints.comparison hname).spells

end TimeColumn

/-- The time of a resource in a column. -/
def Resource.time (x : Resource) : TimeColumn → Instant
  | .created => x.createdTime
  | .updated => x.updatedTime

variable {moment : String} {t : Instant}

/-! ## Queries -/

/-- The filter for a moment makes a query, which is not too large. -/
theorem Query.ofExpr_moment (c : TimeColumn) (r : Relation)
    (hmoment : Instant.parseStrict? moment = some t) :
    ∃ q height, Query.ofExpr (.compare (c.comparison r moment)) = .ok q ∧
      q.measure = .ok height := by
  have htarget := c.ofField_text
  have hsplit : Split.ofExpr (.compare (c.comparison r moment)) =
      .ok ⟨some (.compare (c.comparison r moment)), []⟩ := by
    simp only [Split.ofExpr, Split.ofComparison, TimeColumn.comparison, htarget]
  have hclause : Clause.ofExpr (.compare (c.comparison r moment)) =
      .ok (.column c.column r, [.text t.toStorageText]) := by
    have hparam : columnParam c.column (c.comparison r moment) =
        .ok (.text t.toStorageText) := by
      cases c <;> simp only [columnParam, TimeColumn.column, TimeColumn.comparison, Column.type,
        hmoment]
    have hid : c.column ≠ .id := by cases c <;> simp [TimeColumn.column]
    simp only [Clause.ofExpr, Clause.ofComparison, TimeColumn.comparison, htarget] at hparam ⊢
    simp [hparam, hid, bind, Except.bind, pure, Except.pure]
  refine ⟨⟨[.column c.column r], [.text t.toStorageText]⟩, 4, ?_, rfl⟩
  have hleaves : (Expr.compare (c.comparison r moment)).leaves = [c.comparison r moment] := rfl
  unfold ofExpr
  simp only [hsplit, hleaves, bind, Except.bind, hclause]
  simp [Expr.hasEmptyGroup, TimeColumn.comparison, htarget, ofBound, Except.isOk, Except.toBool,
    pure, Except.pure]

/-- The filter is true of a resource if the texts of its time and of the moment stand in the
relation. -/
theorem isTrueOf_moment (c : TimeColumn) (r : Relation)
    (hmoment : Instant.parseStrict? moment = some t) (x : Resource) :
    Expr.isTrueOf (.compare (c.comparison r moment)) x =
      r.holds (compareOfLessAndEq (x.time c).toStorageText t.toStorageText) := by
  have htarget := c.ofField_text
  have horder : (c.column.operand? (.text moment)).map
      (fun v => r.holds (Filter.order (x.column c.column) v)) =
        some (r.holds (compareOfLessAndEq (x.time c).toStorageText t.toStorageText)) := by
    have hoperand : c.column.operand? (.text moment) = some (.text t.toStorageText) := by
      cases c <;> simp only [Column.operand?, TimeColumn.column, Column.type, hmoment,
        Option.map_some]
    rw [hoperand, Option.map_some, Filter.order_eq]
    cases c <;> rfl
  simp only [Expr.isTrueOf, Expr.truth, Comparison.truth, TimeColumn.comparison, htarget, horder]
  simp

/-! ## Searches -/

/-- The times of a row that is written are of the years 0 to 9999. -/
theorem ResourceRow.IsWritten.years_of_read {row : ResourceRow} {x : Resource}
    (h : row.IsWritten) (hread : Resource.ofRow row = .ok x) (c : TimeColumn) :
    0 ≤ (x.time c).date.year ∧ (x.time c).date.year ≤ 9999 := by
  have hsays := Resource.ofRow_eq_ok_iff.mp hread
  cases c with
  | created =>
      obtain ⟨raw, hraw, hparse⟩ := hsays.createdTime
      obtain ⟨written, hwritten⟩ := h.createdTime
      cases hraw.symm.trans hwritten
      exact Instant.years_of_parseStrict? hparse
  | updated =>
      obtain ⟨raw, hraw, hparse⟩ := hsays.updatedTime
      obtain ⟨written, hwritten⟩ := h.updatedTime
      cases hraw.symm.trans hwritten
      exact Instant.years_of_parseStrict? hparse

namespace Board

/-- All that is found by a filter tells how much it is. -/
theorem Finds.length_eq {b : Board} {s : Store} {kind filter : String} {found others : List Resource}
    (h : b.Finds s kind filter found) (h' : b.Finds s kind filter others) :
    found.length = others.length := by
  let call : Call := ⟨default, default, .never, .search kind filter none none⟩
  have hcancel : call.cancel ≠ .before := Cancellation.noConfusion
  have hsame := (h.answer call none none rfl hcancel).symm.trans
    (h'.answer call none none rfl hcancel)
  simp only [Reply.mk.injEq, Except.ok.injEq, Response.resources.injEq, Page.mk.injEq] at hsame
  exact hsame.2.2.2.2

section

variable {b : Board} {s : Store} {kind filter : String} {spec : KindSpec} {c : TimeColumn}
  {r : Relation} {live : List Resource}

/-- The resources that a table shows were made and changed in the years 0 to 9999. -/
theorem years_of_live (hwritten : s.IsWritten)
    (hlive : (s.resources.filter fun r => r.isLive && r.kind = .text kind).mapM Resource.ofRow =
      .ok live) (c : TimeColumn) :
    ∀ x ∈ live, 0 ≤ (x.time c).date.year ∧ (x.time c).date.year ≤ 9999 := by
  intro x hx
  obtain ⟨row, hrow, hread⟩ := Selection.mem_mapM hlive x hx
  exact (hwritten row (List.mem_of_mem_filter hrow)).1.years_of_read hread c

/-- With a moment later than the year 9999 all of them are found or none, whatever their times. -/
theorem finds_late_moment (hwritten : s.IsWritten) (hkind : b.resolve kind = .ok spec)
    (hmoment : Instant.parseStrict? moment = some t) (hlate : 9999 < t.date.year)
    (hparse : Filter.parse filter = .ok (some (.compare (c.comparison r moment))))
    (hlive : (s.resources.filter fun r => r.isLive && r.kind = .text kind).mapM Resource.ofRow =
      .ok live) : b.Finds s kind filter (live.filter fun _ => r.holds .gt) := by
  obtain ⟨q, height, hquery, hmeasure⟩ := Query.ofExpr_moment c r hmoment
  have hsame : live.filter (Expr.isTrueOf (.compare (c.comparison r moment))) =
      live.filter fun _ => r.holds .gt := by
    refine List.filter_congr fun x hx => ?_
    rw [isTrueOf_moment c r hmoment,
      (Instant.order_of_late (years_of_live hwritten hlive c x hx) hlate).1]
  rw [← hsame]
  exact finds_of_parse hwritten hkind hparse hquery hmeasure hlive

/-- A search by a moment finds the resources whose times stand in the relation, unless it asks for the
order and the moment is later than the year 9999; then it is only right where there are none at all. -/
theorem finds_moment_iff (hwritten : s.IsWritten) (hkind : b.resolve kind = .ok spec)
    (hmoment : Instant.parseStrict? moment = some t)
    (hparse : Filter.parse filter = .ok (some (.compare (c.comparison r moment))))
    (hlive : (s.resources.filter fun r => r.isLive && r.kind = .text kind).mapM Resource.ofRow =
      .ok live) :
    b.Finds s kind filter
        (live.filter fun x => r.Relates (x.time c).truncateMicros t.truncateMicros) ↔
      (r.isOrdering = true → t.date.year ≤ 9999) ∨ live = [] := by
  have hyears := years_of_live hwritten hlive c
  constructor
  · intro hright
    by_contra hwrong
    rw [not_or, Classical.not_imp, not_le] at hwrong
    obtain ⟨⟨hordering, hlate⟩, hsome⟩ := hwrong
    have hrelated : (live.filter fun x => r.Relates (x.time c).truncateMicros t.truncateMicros) =
        live.filter fun _ => r.holds .lt := by
      refine List.filter_congr fun x hx => ?_
      rw [Bool.eq_iff_iff, decide_eq_true_eq, Relation.relates_iff,
        (Instant.order_of_late (hyears x hx) hlate).2]
    have hopposite : r.holds .gt = !r.holds .lt := by
      cases r <;> first | rfl | cases hordering
    have hlength := (finds_late_moment hwritten hkind hmoment hlate hparse hlive).length_eq hright
    rw [hrelated] at hlength
    refine hsome (List.length_eq_zero_iff.mp ?_)
    cases hless : r.holds .lt with
    | false => simpa [hopposite, hless] using hlength
    | true => simpa [hopposite, hless] using hlength.symm
  · intro hright
    obtain ⟨q, height, hquery, hmeasure⟩ := Query.ofExpr_moment c r hmoment
    have hsame : live.filter (Expr.isTrueOf (.compare (c.comparison r moment))) =
        live.filter fun x => r.Relates (x.time c).truncateMicros t.truncateMicros := by
      obtain hearly | rfl := hright
      · refine List.filter_congr fun x hx => ?_
        rw [Bool.eq_iff_iff, decide_eq_true_eq, isTrueOf_moment c r hmoment]
        exact (r.holds_storageText_iff (hyears x hx)).mpr hearly
      · rfl
    rw [← hsame]
    exact finds_of_parse hwritten hkind hparse hquery hmeasure hlive

end

/-- After any calls, a time of a row and a moment are compared as texts, which is right, to the
microsecond, unless the relation asks for the order and the moment is later than the year 9999: for
each row, and for what a search finds among the live resources of a kind, if there are any. -/
theorem moments_compare_right_iff (b : Board) {calls : List Call}
    (hordered : ∀ c ∈ calls, c.request.IsOrdered) (c : TimeColumn) (r : Relation)
    (hmoment : Instant.parseStrict? moment = some t) :
    ∃ q, Query.ofExpr (.compare (c.comparison r moment)) = .ok q ∧
      (∀ row ∈ (b.run calls).1.resources, ∃ x, Resource.ofRow row = .ok x ∧
        ((Predicate.allTrue row (Predicate.ofClauses q.params q.parts) = true ↔
            r.Relates (x.time c).truncateMicros t.truncateMicros) ↔
          (r.isOrdering = true → t.date.year ≤ 9999))) ∧
      ∀ (kind filter : String) (spec : KindSpec), b.resolve kind = .ok spec →
        Filter.parse filter = .ok (some (.compare (c.comparison r moment))) →
        ∃ live, ((b.run calls).1.resources.filter fun r => r.isLive && r.kind = .text kind).mapM
            Resource.ofRow = .ok live ∧
          (b.Finds (b.run calls).1 kind filter
              (live.filter fun x => r.Relates (x.time c).truncateMicros t.truncateMicros) ↔
            (r.isOrdering = true → t.date.year ≤ 9999) ∨ live = []) := by
  have hwritten := b.isWritten_run calls hordered
  obtain ⟨q, height, hquery, -⟩ := Query.ofExpr_moment c r hmoment
  refine ⟨q, hquery, ?_, ?_⟩
  · intro row hrow
    obtain ⟨hrowWritten, x, hread⟩ := hwritten row hrow
    refine ⟨x, hread, ?_⟩
    rw [Query.allTrue_ofExpr (hrowWritten.records hread) hquery, isTrueOf_moment c r hmoment]
    exact r.holds_storageText_iff (hrowWritten.years_of_read hread c)
  · intro kind filter spec hkind hparse
    obtain ⟨live, hlive⟩ := hwritten.exists_live kind
    exact ⟨live, hlive, finds_moment_iff hwritten hkind hmoment hparse hlive⟩

/-- Two clusters are created, and nothing else happens. -/
def creations : List Call :=
  sampleCalls.take 2

/-- Half an hour after the clusters were created. -/
def sampleMoment : Instant :=
  (Instant.of? default 1800 0).get rfl

theorem moments_compare_right_sample :
    ∃ found, found.length = 2 ∧
      sampleBoard.Finds (sampleBoard.run creations).1 "Cluster"
        "created_time < '1969-12-31T23:30:00-01:00'" found := by
  have hordered : ∀ c ∈ creations, c.request.IsOrdered := by
    simp [creations, sampleCalls, Request.IsOrdered, Dict.Sorted]
  have hmoment : Instant.parseStrict? "1969-12-31T23:30:00-01:00" = some sampleMoment := by
    decide +kernel
  have htext : "created_time < '1969-12-31T23:30:00-01:00'" =
      String.ofList (TimeColumn.created.comparison .lt "1969-12-31T23:30:00-01:00").toChars := by
    decide +kernel
  have hcount : (((sampleBoard.run creations).1.resources.filter fun r =>
      r.isLive && r.kind = .text "Cluster").mapM Resource.ofRow).toOption.map (fun live =>
        (live.filter fun x => Relation.lt.Relates (x.time .created).truncateMicros
          sampleMoment.truncateMicros).length) = some 2 := by
    decide +kernel
  obtain ⟨spec, hspec⟩ : ∃ spec, sampleBoard.resolve "Cluster" = .ok spec := ⟨_, rfl⟩
  obtain ⟨q, -, -, hsearches⟩ :=
    moments_compare_right_iff sampleBoard hordered .created .lt hmoment
  obtain ⟨live, hlive, hfinds⟩ :=
    hsearches "Cluster" _ spec hspec (TimeColumn.parse_comparison ..)
  rw [hlive] at hcount
  rw [htext]
  exact ⟨_, Option.some.inj hcount, hfinds.mpr (.inl fun _ => by decide)⟩

/-- The last second of the year 9999, as the clocks show it an hour behind. -/
def lateMoment : Instant :=
  (Instant.of? ((Date.of? 10000 1 1).get rfl) 3599 0).get rfl

/-- All clusters were created before the year 10000, and a search for those that were created before
its first hour is over finds none. -/
theorem late_moment_finds_none :
    Instant.parseStrict? "9999-12-31T23:59:59-01:00" = some lateMoment ∧
      (∃ live ∈ (((sampleBoard.run creations).1.resources.filter fun r =>
          r.isLive && r.kind = .text "Cluster").mapM Resource.ofRow).toOption,
        live.length = 2 ∧ ∀ x ∈ live, x.createdTime < lateMoment) ∧
      sampleBoard.Finds (sampleBoard.run creations).1 "Cluster"
        "created_time < '9999-12-31T23:59:59-01:00'" [] := by
  have hordered : ∀ c ∈ creations, c.request.IsOrdered := by
    simp [creations, sampleCalls, Request.IsOrdered, Dict.Sorted]
  have hmoment : Instant.parseStrict? "9999-12-31T23:59:59-01:00" = some lateMoment := by
    decide +kernel
  have hearlier : ∃ live ∈ (((sampleBoard.run creations).1.resources.filter fun r =>
      r.isLive && r.kind = .text "Cluster").mapM Resource.ofRow).toOption,
      live.length = 2 ∧ ∀ x ∈ live, x.createdTime < lateMoment := by
    decide +kernel
  refine ⟨hmoment, hearlier, ?_⟩
  have htext : "created_time < '9999-12-31T23:59:59-01:00'" =
      String.ofList (TimeColumn.created.comparison .lt "9999-12-31T23:59:59-01:00").toChars := by
    decide +kernel
  have hwritten := sampleBoard.isWritten_run creations hordered
  obtain ⟨spec, hspec⟩ : ∃ spec, sampleBoard.resolve "Cluster" = .ok spec := ⟨_, rfl⟩
  obtain ⟨live, hlive⟩ := hwritten.exists_live "Cluster"
  have hfinds := finds_late_moment hwritten hspec hmoment (by decide)
    (TimeColumn.parse_comparison .created .lt _) hlive
  rw [← htext] at hfinds
  simpa [Relation.holds] using hfinds

end Board
end StatusBoard

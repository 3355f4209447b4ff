import StatusBoard.Proofs.Query.Lookup
import StatusBoard.Proofs.Service.Gate
import StatusBoard.Proofs.Service.Search
set_option autoImplicit false

/-!
# Service: what was written is found

Whatever passes the checks of a creation or of a revision can be asked for: for each label of a live
resource, and for each of its conditions, there is a filter that is read and makes a query, and a
search by it finds the live resources of the kind that have the same, this one among them.
-/

namespace StatusBoard

open StatusBoard.Filter (Expr labelText conditionText)

/-- The resource has a label with a value. -/
def Resource.hasLabel (x : Resource) (key value : String) : Bool :=
  x.labels.get? key = some value

/-- The resource has a condition of a type with a status. -/
def Resource.hasCondition (x : Resource) (type : String) (status : ConditionStatus) : Bool :=
  x.statusConditions.conditions.any fun c => c.type = type && c.status = status

namespace Board

/-- The text of a filter makes a query, and a search by it finds just these resources: each page that
is asked for is cut out of them, oldest first, and tells how many they are. -/
structure Finds (b : Board) (s : Store) (kind filter : String) (found : List Resource) : Prop where
  compiles : ∃ q, Query.ofText filter = .ok (some q)
  answer : ∀ (c : Call) (page pageSize : Option UInt32),
    c.request = .search kind filter page pageSize → c.cancel ≠ .before →
    b.answer s c = ⟨s, .ok (.resources {
      items := (b.paging.resolve page pageSize).slice (found.mergeSort Resource.isListedBefore)
      page := (b.paging.resolve page pageSize).page
      pageSize := (b.paging.resolve page pageSize).pageSize
      total := found.length })⟩

variable {b : Board} {s : Store} {kind filter : String} {e : Expr} {q : Query} {height : Nat}
  {live : List Resource}

/-- A search of a kind that is known, by a filter that makes a query, is answered by the table. -/
theorem answer_search {spec : KindSpec} (hkind : b.resolve kind = .ok spec) {query : Option Query}
    (hquery : Query.ofText filter = .ok query) {c : Call} {page pageSize : Option UInt32}
    (hrequest : c.request = .search kind filter page pageSize) :
    b.answer s c = ⟨s, ((s.search c.cancel kind query (b.paging.resolve page pageSize)).mapError
      ServiceError.ofStore).map .resources⟩ := by
  have hsearch : b.search c.circumstances s kind filter page pageSize =
      (s.search c.cancel kind query (b.paging.resolve page pageSize)).mapError
        ServiceError.ofStore := by
    simp only [search, hkind, hquery, mapError_ok, bind, Except.bind]
    rfl
  rw [answer, hrequest, handle, hsearch]

/-- What a filter finds that is read, and whose query is not too large. -/
theorem finds_of_parse (hwritten : s.IsWritten) {spec : KindSpec}
    (hkind : b.resolve kind = .ok spec) (hparse : Filter.parse filter = .ok (some e))
    (hquery : Query.ofExpr e = .ok q) (hmeasure : q.measure = .ok height)
    (hlive : (s.resources.filter fun r => r.isLive && r.kind = .text kind).mapM Resource.ofRow =
      .ok live) : b.Finds s kind filter (live.filter e.isTrueOf) := by
  have htext := Query.ofText_of_parse hparse hquery
  refine ⟨⟨q, htext⟩, fun c page pageSize hrequest hcancel => ?_⟩
  obtain ⟨live', hlive', hsearch⟩ :=
    hwritten.search_eq hcancel hquery hmeasure kind (b.paging.resolve page pageSize)
  cases hlive.symm.trans hlive'
  rw [answer_search hkind htext hrequest, hsearch]
  rfl

/-- What the filter for a label finds. -/
theorem finds_labelText (hwritten : s.IsWritten) {spec : KindSpec}
    (hkind : b.resolve kind = .ok spec) {key : String} (hkey : isLabelKey key = true)
    (value : String)
    (hlive : (s.resources.filter fun r => r.isLive && r.kind = .text kind).mapM Resource.ofRow =
      .ok live) :
    b.Finds s kind (labelText key value) (live.filter fun y => y.hasLabel key value) := by
  obtain ⟨q, height, hquery, hmeasure⟩ := Query.ofExpr_label hkey value
  have hsame : live.filter (Expr.compare (Filter.labelComparison key value)).isTrueOf =
      live.filter fun y => y.hasLabel key value := by
    refine List.filter_congr fun y _ => ?_
    rw [Bool.eq_iff_iff, isTrueOf_label hkey, Resource.hasLabel, decide_eq_true_eq]
  rw [← hsame]
  exact finds_of_parse hwritten hkind (Filter.parse_labelText hkey value) hquery hmeasure hlive

/-- What the filter for a condition finds. -/
theorem finds_conditionText (hwritten : s.IsWritten) {spec : KindSpec}
    (hkind : b.resolve kind = .ok spec) {type : String} (htype : isPascalCase type = true)
    (status : ConditionStatus)
    (hlive : (s.resources.filter fun r => r.isLive && r.kind = .text kind).mapM Resource.ofRow =
      .ok live) :
    b.Finds s kind (conditionText type status) (live.filter fun y => y.hasCondition type status) := by
  obtain ⟨q, height, hquery, hmeasure⟩ := Query.ofExpr_condition htype status
  have hsame : live.filter (Expr.compare (Filter.conditionComparison type status)).isTrueOf =
      live.filter fun y => y.hasCondition type status := by
    refine List.filter_congr fun y _ => ?_
    rw [Bool.eq_iff_iff, isTrueOf_condition]
    simp [Resource.hasCondition]
  rw [← hsame]
  exact finds_of_parse hwritten hkind (Filter.parse_conditionText htype status) hquery hmeasure
    hlive

/-- After any calls, a live resource can be found by each of its labels, and by each of its
conditions: the filter for it is read and makes a query, and a search of the kind by it finds the
live resources of the kind that have the same, this one among them. -/
theorem written_is_found (b : Board) {calls : List Call}
    (hordered : ∀ c ∈ calls, c.request.IsOrdered) {row : ResourceRow}
    (hrow : row ∈ (b.run calls).1.resources) (hlive : row.isLive = true) :
    ∃ x live, Resource.ofRow row = .ok x ∧
      ((b.run calls).1.resources.filter fun r => r.isLive && r.kind = .text x.kind).mapM
        Resource.ofRow = .ok live ∧
      (∀ label ∈ x.labels, ∃ found, found = live.filter (·.hasLabel label.1 label.2) ∧
        x ∈ found ∧ b.Finds (b.run calls).1 x.kind (labelText label.1 label.2) found) ∧
      ∀ c ∈ x.statusConditions.conditions, ∃ found,
        found = live.filter (·.hasCondition c.type c.status) ∧
        x ∈ found ∧ b.Finds (b.run calls).1 x.kind (conditionText c.type c.status) found := by
  have hwritten := b.isWritten_run calls hordered
  obtain ⟨hrowWritten, x, hread⟩ := hwritten row hrow
  have hsays := Resource.ofRow_eq_ok_iff.mp hread
  obtain ⟨hsorted, hkeys⟩ := hrowWritten.labels_of_read hread
  obtain ⟨kind, name, spec, labels, d, hpasses⟩ := b.passes_of_mem_run calls hrow
  obtain ⟨raw, hraw, hparse⟩ := hpasses.conditions
  have hkindEq : kind = x.kind := Cell.text.inj (hpasses.kindText.symm.trans hsays.kind)
  have hkind : b.resolve x.kind = .ok spec := by
    rw [← hkindEq, resolve, hpasses.registered, mapError_ok]
  have hdocument : d = x.statusConditions := by
    have hsame := Cell.read_eq hraw hsays.statusConditions
    rw [hparse] at hsame
    exact Except.ok.inj hsame
  obtain ⟨live, hlist⟩ := hwritten.exists_live x.kind
  have hmem : x ∈ live :=
    Selection.mem_of_mapM hlist (List.mem_filter.mpr ⟨hrow, by simp [hlive, hsays.kind]⟩) hread
  refine ⟨x, live, hread, hlist, ?_, ?_⟩
  · intro label hlabel
    refine ⟨_, rfl, List.mem_filter.mpr ⟨hmem, ?_⟩,
      finds_labelText hwritten hkind (hkeys label hlabel) label.2 hlist⟩
    rw [Resource.hasLabel, Dict.get?_of_mem hsorted hlabel, decide_eq_true_eq]
  · intro c hc
    have htype : isPascalCase c.type = true := by
      refine hpasses.determinate.types c.type ?_
      rw [hdocument]
      exact List.mem_map_of_mem hc
    refine ⟨_, rfl, List.mem_filter.mpr ⟨hmem, ?_⟩,
      finds_conditionText hwritten hkind htype c.status hlist⟩
    exact List.any_eq_true.mpr ⟨c, hc, by simp⟩

theorem written_is_found_sample :
    (∃ x found, x.name = "c1" ∧ x ∈ found ∧
      sampleBoard.Finds (sampleBoard.run sampleCalls).1 "Cluster" "labels.env = 'test'" found) ∧
    ∃ x found, x.name = "c2" ∧ x ∈ found ∧
      sampleBoard.Finds (sampleBoard.run sampleCalls).1 "Cluster" "status.conditions.Ready='True'"
        found := by
  have hordered : ∀ c ∈ sampleCalls, c.request.IsOrdered := by
    simp [sampleCalls, Request.IsOrdered, Dict.Sorted]
  have hrows : (∃ r ∈ (sampleBoard.run sampleCalls).1.resources, r.isLive = true ∧
      ∃ x ∈ (Resource.ofRow r).toOption, x.kind = "Cluster" ∧ x.name = "c1" ∧
        ("env", "test") ∈ x.labels) ∧
      ∃ r ∈ (sampleBoard.run sampleCalls).1.resources, r.isLive = true ∧
        ∃ x ∈ (Resource.ofRow r).toOption, x.kind = "Cluster" ∧ x.name = "c2" ∧
          ∃ c ∈ x.statusConditions.conditions, c.type = "Ready" ∧ c.status = .holds := by
    decide +kernel
  obtain ⟨⟨r, hr, hlive, x, hx, hkind, hname, hlabel⟩,
    r', hr', hlive', x', hx', hkind', hname', c, hc, htype, hstatus⟩ := hrows
  constructor
  · obtain ⟨y, live, hread, -, hlabels, -⟩ := written_is_found sampleBoard hordered hr hlive
    rw [hread] at hx
    cases hx
    obtain ⟨found, -, hmem, hfinds⟩ := hlabels _ hlabel
    exact ⟨x, found, hname, hmem, hkind ▸ hfinds⟩
  · obtain ⟨y, live, hread, -, -, hconditions⟩ :=
      written_is_found sampleBoard hordered hr' hlive'
    rw [hread] at hx'
    cases hx'
    obtain ⟨found, -, hmem, hfinds⟩ := hconditions c hc
    rw [hkind', htype, hstatus] at hfinds
    exact ⟨x', found, hname', hmem, hfinds⟩

end Board
end StatusBoard

import StatusBoard.Proofs.Kind
import StatusBoard.Proofs.Report
import StatusBoard.Proofs.Resource
set_option autoImplicit false

/-!
# Encoding: reading undoes writing

What is sent and what is stored goes through JSON texts.  A reader takes back what the writer beside
it wrote, for every value of every type that has both; and what a reader takes of any other text is
not changed by writing and reading it once more.  The numbers with a fraction in opaque data are the
one exception, for their digits may be read as a neighbouring number.
-/

namespace StatusBoard

open Json (Value IsStable)

/-- Each type of record, and documents, are read back as they were written.  Documents must not
repeat a type, labels and kinds must be in order, and opaque data be such as is held: without
fractions, not null where it may be left out, and with room for its nesting in what surrounds it.
Whatever text is accepted, what is read of it is read again from its own text. -/
theorem decoding_undoes_encoding :
    (∀ d : Document, d.HasDistinctTypes → Document.parse d.render = .ok d) ∧
    (∀ m : ExecutionMetadata, Json.decode? ExecutionMetadata.read m.write.render = some m) ∧
    (∀ r : Report, (∀ v ∈ r.data, v.IsTidy ∧ v ≠ .null) → r.write.isWhole = true →
      Json5.nesting r.write ≤ 127 → Json.decode? Report.read r.write.render = some r) ∧
    (∀ s : AdapterStatus, (∀ v ∈ s.data, v.IsTidy ∧ v ≠ .null) → s.write.isWhole = true →
      Json5.nesting s.write ≤ 127 → Json.decode? AdapterStatus.read s.write.render = some s) ∧
    (∀ r : NewResource, r.labels.Sorted → r.spec.IsTidy → r.write.isWhole = true →
      Json5.nesting r.write ≤ 127 → Json.decode? NewResource.read r.write.render = some r) ∧
    (∀ x : Resource, x.labels.Sorted → x.spec.IsTidy → x.write.isWhole = true →
      Json5.nesting x.write ≤ 127 → Json.decode? Resource.read x.write.render = some x) ∧
    (∀ kinds : KindRegistry, Dict.Sorted kinds.kinds → kinds.IsSorted →
      Json.decode? (KindRegistry.read .wire) kinds.write.render = some kinds) ∧
    (∀ raw d, Document.parse raw = .ok d → Document.parse d.render = .ok d) ∧
    IsStable ExecutionMetadata.read ExecutionMetadata.write ∧
    IsStable Report.read Report.write ∧ IsStable AdapterStatus.read AdapterStatus.write ∧
    IsStable NewResource.read NewResource.write ∧ IsStable Resource.read Resource.write ∧
    IsStable (KindRegistry.read .wire) KindRegistry.write :=
  ⟨fun _ => Document.parse_render_of_distinct, ExecutionMetadata.decode?_render,
    fun _ => Report.decode?_render, fun _ => AdapterStatus.decode?_render,
    fun _ => NewResource.decode?_render, fun _ => Resource.decode?_render,
    fun _ hkinds hsorted => KindRegistry.decode?_render hkinds hsorted .wire,
    fun _ _ h => Document.parse_render_of_distinct (Document.distinct_of_parse h),
    fun _ m _ => .of_eq m.decode?_render, Report.isStable, AdapterStatus.isStable,
    NewResource.isStable, Resource.isStable, KindRegistry.isStable .wire⟩

/-- A leap second long before there were any. -/
def earlyLeapSecond : Instant :=
  ⟨⟨-44, 3, 15, by decide, by decide, by decide⟩, 43259, 1999999999, by decide, by decide,
    by decide⟩

/-- Opaque data with the least and the greatest of the whole numbers. -/
def sampleData : Value :=
  .object [("a\"\n", .array [.int (-9223372036854775808), .null]), ("é", .int 18446744073709551615)]

theorem isTidy_sampleData : sampleData.IsTidy := by
  refine .object (by unfold Dict.Sorted; decide) ?_
  rintro member (_ | ⟨_, _ | ⟨_, ⟨⟩⟩⟩)
  · refine .array ?_
    rintro item (_ | ⟨_, _ | ⟨_, ⟨⟩⟩⟩)
    · exact .number (.whole (by decide) (by decide))
    · exact .null
  · exact .number (.whole (by decide) (by decide))

def sampleReport : Report where
  adapter := "a1"
  observedGeneration := -9223372036854775808
  observedTime := some earlyLeapSecond
  conditions := [⟨"Ready", .unknown, some "", none⟩]
  data := some sampleData
  metadata := some { attempt := some 4294967295, startedTime := some earlyLeapSecond }

def sampleStatus : AdapterStatus where
  id := default
  key := ⟨"Cluster", "c1", "a1"⟩
  observedGeneration := 9223372036854775807
  conditions := ⟨[ConditionInput.stamped ⟨"Ready", .unknown, none, none⟩ 1 earlyLeapSecond]⟩
  data := some sampleData
  metadata := none
  createdTime := earlyLeapSecond
  lastReportTime := default

def sampleNew : NewResource where
  name := "c1"
  labels := [("app", "\x00"), ("zone", "")]
  spec := sampleData

def sampleResource : Resource where
  id := default
  kind := "Cluster"
  name := "c1"
  labels := sampleNew.labels
  spec := sampleData
  generation := 1
  statusConditions := sampleStatus.conditions
  createdTime := earlyLeapSecond
  updatedTime := default

theorem decoding_undoes_encoding_sample :
    Document.parse sampleStatus.conditions.render = .ok sampleStatus.conditions ∧
    Json.decode? Report.read sampleReport.write.render = some sampleReport ∧
    Json.decode? AdapterStatus.read sampleStatus.write.render = some sampleStatus ∧
    Json.decode? NewResource.read sampleNew.write.render = some sampleNew ∧
    Json.decode? Resource.read sampleResource.write.render = some sampleResource ∧
    Json.decode? (KindRegistry.read .wire) KindRegistry.reference.write.render =
      some KindRegistry.reference := by
  obtain ⟨hdocument, -, hreport, hstatus, hnew, hresource, hkinds, -⟩ := decoding_undoes_encoding
  have hdata : ∀ v ∈ some sampleData, v.IsTidy ∧ v ≠ .null := by
    rintro v ⟨⟩
    exact ⟨isTidy_sampleData, by simp [sampleData]⟩
  have hlabels : sampleNew.labels.Sorted := by
    unfold Dict.Sorted
    decide
  exact ⟨hdocument _ (List.nodup_singleton _), hreport _ hdata (by decide) (by decide),
    hstatus _ hdata (by decide) (by decide),
    hnew _ hlabels isTidy_sampleData (by decide) (by decide),
    hresource _ hlabels isTidy_sampleData (by decide) (by decide),
    hkinds _ (by unfold Dict.Sorted; decide) KindRegistry.isSorted_reference⟩

end StatusBoard

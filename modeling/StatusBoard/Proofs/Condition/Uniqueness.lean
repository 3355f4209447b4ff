import StatusBoard.Proofs.Condition.History
import StatusBoard.Proofs.Report
import StatusBoard.Resource
set_option autoImplicit false

/-!
# Condition: documents whose types differ

A document has at most one condition of each type, as long as it is made by a function that looks
for repeats, or is merged from such a document.  A document inside of a record is read without
looking: its types differ exactly if its own text would be accepted as a document.
-/

namespace StatusBoard.Document

instance (d : Document) : Decidable d.HasDistinctTypes :=
  inferInstanceAs (Decidable d.types.Nodup)

/-! ## Repeats are refused -/

/-- A type that is told to be repeated stands there twice. -/
theorem exists_repeatedType {conditions : List Condition}
    (h : ¬ (conditions.map (·.type)).Nodup) :
    ∃ type, repeatedType? conditions = some type ∧
      2 ≤ (conditions.map (·.type)).count type := by
  rw [← firstRepeat?_nil_eq_none_iff, ← ne_eq, Option.ne_none_iff_exists'] at h
  obtain ⟨type, htype⟩ := h
  obtain ⟨before, after, hsplit, -, hbefore⟩ := (firstRepeat?_nil_eq_some_iff _ _).mp htype
  refine ⟨type, htype, ?_⟩
  have hcount := List.one_le_count_iff.mpr hbefore
  rw [hsplit, List.count_append, List.count_cons_self]
  omega

/-- Conditions of which two have one type are no document, and neither is a text of them; one and the
same type is told. -/
theorem exists_refused {d : Document} (h : ¬ d.HasDistinctTypes) :
    ∃ type, ofList d.conditions = .error (.duplicateConditionType type) ∧
      (∀ raw, Json.decode? read raw = some d → parse raw = .error (.repeatedType type)) ∧
      2 ≤ d.types.count type := by
  obtain ⟨type, htype, hcount⟩ := exists_repeatedType h
  refine ⟨type, by simp only [ofList, htype], fun raw hraw => ?_, hcount⟩
  simp only [parse, hraw, htype]

/-- A report of which two conditions have one type makes no document, and the type is told. -/
theorem exists_refused_report {r : Report} (h : ¬ (r.conditions.map (·.type)).Nodup)
    (now : Instant) : ∃ type, r.document now = .error (.duplicateConditionType type) ∧
      2 ≤ (r.conditions.map (·.type)).count type := by
  have htypes := types_sent r.conditions r.observedGeneration now
  rw [← htypes] at h ⊢
  obtain ⟨type, hrefused, -, hcount⟩ := exists_refused h
  exact ⟨type, hrefused, hcount⟩

/-- The types of a document differ if its text is accepted as a document. -/
theorem hasDistinctTypes_iff_parse {d : Document} :
    d.HasDistinctTypes ↔ parse d.render = .ok d :=
  ⟨parse_render_of_distinct, distinct_of_parse⟩

/-- The condition that is found for a type is the only one of the type. -/
theorem HasDistinctTypes.get?_eq_some_iff {d : Document} (h : d.HasDistinctTypes) {type : String}
    {c : Condition} : d.get? type = some c ↔ c ∈ d.conditions ∧ c.type = type := by
  constructor
  · intro hget
    exact ⟨List.mem_of_find?_eq_some hget, by simpa using List.find?_some hget⟩
  · rintro ⟨hc, rfl⟩
    cases hget : d.get? c.type with
    | none => simpa using List.find?_eq_none.mp hget c hc
    | some other =>
        have htype : other.type = c.type := by simpa using List.find?_some hget
        rw [h.eq (List.mem_of_find?_eq_some hget) hc htype]

/-! ## Where documents come from -/

/-- How a document comes about from what is outside. -/
inductive Origin where
  | listed (conditions : List Condition)
  | text (raw : String)
  | reported (r : Report) (now : Instant)
  /-- It is part of the text of a status. -/
  | inStatus (raw : String)
  /-- It is part of the text of a resource. -/
  | inResource (raw : String)
  | merged (incoming : Origin) (previous : Option Document) (now : Instant)
  | mergedStored (incoming : Origin) (stored : Option String) (now : Instant)

namespace Origin

/-- The document, unless it is refused. -/
def document? : Origin → Option Document
  | listed conditions => (ofList conditions).toOption
  | text raw => (parse raw).toOption
  | reported r now => (r.document now).toOption
  | inStatus raw => (Json.decode? AdapterStatus.read raw).map (·.conditions)
  | inResource raw => (Json.decode? Resource.read raw).map (·.statusConditions)
  | merged incoming previous now => incoming.document?.map (·.mergedOver previous now)
  | mergedStored incoming stored now =>
    incoming.document?.map fun d => (d.mergedOverStored stored now).document

/-- A document that was part of a record could also stand on its own. -/
def IsSound : Origin → Prop
  | listed _ | text _ | reported .. => True
  | inStatus raw => ∀ status, Json.decode? AdapterStatus.read raw = some status →
    parse status.conditions.render = .ok status.conditions
  | inResource raw => ∀ resource, Json.decode? Resource.read raw = some resource →
    parse resource.statusConditions.render = .ok resource.statusConditions
  | merged incoming _ _ | mergedStored incoming _ _ => incoming.IsSound

/-- What is accepted of a check is the value that the check gives. -/
theorem eq_ok_of_toOption {ε : Type} {x : Except ε Document} {d : Document}
    (h : x.toOption = some d) : x = .ok d := by
  cases x with
  | error e => cases h
  | ok found => exact congrArg Except.ok (Option.some.inj h)

/-- The types of a document differ exactly if it is not, and was not merged from, part of a record
that repeats a type.  A merge is over any document, also over one that repeats types. -/
theorem hasDistinctTypes_iff_isSound {o : Origin} {d : Document} (h : o.document? = some d) :
    d.HasDistinctTypes ↔ o.IsSound := by
  induction o generalizing d with
  | listed conditions =>
      obtain ⟨hdistinct, rfl⟩ := ofList_eq_ok_iff.mp (eq_ok_of_toOption h)
      exact iff_true_intro hdistinct
  | text raw => exact iff_true_intro (distinct_of_parse (eq_ok_of_toOption h))
  | reported r now =>
      obtain ⟨hdistinct, rfl⟩ := ofInputs_eq_ok_iff.mp (eq_ok_of_toOption h)
      exact iff_true_intro (hasDistinctTypes_sent hdistinct r.observedGeneration now)
  | inStatus raw =>
      obtain ⟨status, hstatus, rfl⟩ := Option.map_eq_some_iff.mp h
      simp only [hasDistinctTypes_iff_parse, IsSound, hstatus, Option.some.injEq, forall_eq']
  | inResource raw =>
      obtain ⟨resource, hresource, rfl⟩ := Option.map_eq_some_iff.mp h
      simp only [hasDistinctTypes_iff_parse, IsSound, hresource, Option.some.injEq, forall_eq']
  | merged incoming previous now ih =>
      obtain ⟨before, hbefore, rfl⟩ := Option.map_eq_some_iff.mp h
      rw [HasDistinctTypes, types_mergedOver]
      exact ih hbefore
  | mergedStored incoming stored now ih =>
      obtain ⟨before, hbefore, rfl⟩ := Option.map_eq_some_iff.mp h
      rw [document_mergedOverStored, HasDistinctTypes, types_mergedOver]
      exact ih hbefore

end Origin

/-- The types of a document differ, however it came about, unless it is part of a record whose text
repeats a type, or was merged from such a document.  Then the condition that is found for a type is
the only one of the type.  Everywhere else repeats are refused, and a type that is repeated is told. -/
theorem types_differ_unless_embedded (o : Origin) (d : Document) (r : Report) (now : Instant) :
    (o.document? = some d → (d.HasDistinctTypes ↔ o.IsSound) ∧
      (o.IsSound → ∀ type c, d.get? type = some c ↔ c ∈ d.conditions ∧ c.type = type)) ∧
    (¬ d.HasDistinctTypes → ∃ type,
      ofList d.conditions = .error (.duplicateConditionType type) ∧
      (∀ raw, Json.decode? read raw = some d → parse raw = .error (.repeatedType type)) ∧
      2 ≤ d.types.count type) ∧
    (¬ (r.conditions.map (·.type)).Nodup → ∃ type,
      r.document now = .error (.duplicateConditionType type) ∧
      2 ≤ (r.conditions.map (·.type)).count type) := by
  refine ⟨fun h => ?_, exists_refused, fun h => exists_refused_report h now⟩
  have hiff := Origin.hasDistinctTypes_iff_isSound h
  exact ⟨hiff, fun hsound type c => (hiff.mpr hsound).get?_eq_some_iff⟩

/-- It is ready, and it is not. -/
def contradiction : List ConditionInput :=
  [⟨"Ready", .holds, none, none⟩, ⟨"Ready", .fails, none, none⟩]

/-- A report of half of it, merged twice: over both halves, and over a text that is none. -/
def consistentOrigin : Origin :=
  .mergedStored (.merged (.reported { (default : Report) with conditions := contradiction.take 1 }
    default) (some (sent contradiction 1 default)) default) (some "[") default

theorem types_differ_unless_embedded_sample :
    (∃ d, consistentOrigin.document? = some d ∧ (d.HasDistinctTypes ↔ consistentOrigin.IsSound) ∧
      ∀ type c, d.get? type = some c ↔ c ∈ d.conditions ∧ c.type = type) ∧
    (∃ type, ofList (sent contradiction 1 default).conditions =
        .error (.duplicateConditionType type) ∧
      parse (sent contradiction 1 default).render = .error (.repeatedType type) ∧
      2 ≤ (sent contradiction 1 default).types.count type) ∧
    ∃ type, Report.document { (default : Report) with conditions := contradiction } default =
        .error (.duplicateConditionType type) ∧
      2 ≤ (contradiction.map (·.type)).count type := by
  let r : Report := { (default : Report) with conditions := contradiction }
  obtain ⟨hdiffer, -, -⟩ := types_differ_unless_embedded consistentOrigin _ r default
  obtain ⟨hiff, hget⟩ := hdiffer rfl
  obtain ⟨-, hrefused, hreported⟩ := types_differ_unless_embedded consistentOrigin
    (sent contradiction 1 default) r default
  obtain ⟨type, hlisted, hstored, hcount⟩ := hrefused (by decide)
  exact ⟨⟨_, rfl, hiff, hget trivial⟩, ⟨type, hlisted, hstored _ (decode?_render _), hcount⟩,
    hreported (by decide)⟩

/-- A status that says twice whether it is ready. -/
def repeatingStatus : AdapterStatus where
  id := default
  key := ⟨"Cluster", "c1", "a1"⟩
  observedGeneration := 1
  conditions := sent contradiction 1 default
  data := none
  metadata := none
  createdTime := default
  lastReportTime := default

/-- The text of the status is read, its document repeats a type, and what is found for the type is
not all that there is of it. -/
theorem embedded_types_repeat :
    ∃ d, (Origin.inStatus repeatingStatus.write.render).document? = some d ∧
      ¬ d.HasDistinctTypes ∧ ∃ c ∈ d.conditions, c.type = "Ready" ∧ d.get? "Ready" ≠ some c := by
  have hread : Json.decode? AdapterStatus.read repeatingStatus.write.render =
      some repeatingStatus :=
    AdapterStatus.decode?_render (fun v hv => (by cases hv)) (by decide) (by decide)
  refine ⟨repeatingStatus.conditions, ?_, by decide, by decide⟩
  rw [Origin.document?, hread, Option.map_some]

end StatusBoard.Document

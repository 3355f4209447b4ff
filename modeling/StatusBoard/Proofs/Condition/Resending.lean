import StatusBoard.Proofs.Condition.Checks
import StatusBoard.Proofs.Condition.History
set_option autoImplicit false

/-!
# Condition: reports that are sent again

A report that is sent again is merged over the document that the first one left, whatever that was
merged over in turn.  Nothing comes of it but a later time of the report; and where a status is
another one than before, its time of change.
-/

namespace StatusBoard

/-! ## Conditions -/

/-- The condition, reported once more with a status. -/
def Condition.reportedAgain (c : Condition) (status : ConditionStatus) (now : Instant) : Condition :=
  { c with
    status
    lastTransitionTime := if status = c.status then c.lastTransitionTime else now
    lastUpdatedTime := some now }

theorem Condition.reportedAgain_same (c : Condition) (now : Instant) :
    c.reportedAgain c.status now = { c with lastUpdatedTime := some now } := by
  simp [reportedAgain]

/-- What is sent again is merged over what was made of it the first time.  That always knows when
its type was first seen, so nothing is left to the time of the second report. -/
theorem ConditionInput.mergedOver_mergedOver (input : ConditionInput) (status : ConditionStatus)
    (generation : Int64) (old : Option Condition) (first second : Instant) :
    ({ input with status }.stamped generation second).mergedOver
        (some ((input.stamped generation first).mergedOver old first)) second =
      ((input.stamped generation first).mergedOver old first).reportedAgain status second := by
  by_cases hsame : input.status = status
  · simp [stamped, Condition.mergedOver, Condition.reportedAgain, hsame]
  · simp [stamped, Condition.mergedOver, Condition.reportedAgain, hsame, Ne.symm hsame]

/-! ## Documents -/

namespace Document

/-- A condition of a document is the latest of its type, if the types differ. -/
theorem HasDistinctTypes.latest?_eq {d : Document} (h : d.HasDistinctTypes) {c : Condition}
    (hc : c ∈ d.conditions) : d.latest? c.type = some c := by
  cases hlatest : d.latest? c.type with
  | none => exact absurd rfl (latest?_eq_none hlatest c hc)
  | some other =>
      obtain ⟨hmem, htype⟩ := latest?_eq_some hlatest
      rw [h.eq hmem hc htype]

/-- What is sent, merged over a document at a time. -/
def made (inputs : List ConditionInput) (generation : Int64) (previous : Option Document)
    (now : Instant) : Document :=
  (sent inputs generation now).mergedOver previous now

section Again

variable {inputs : List ConditionInput} (hdistinct : (inputs.map (·.type)).Nodup)
  (generation : Int64) (previous : Option Document) (first second : Instant)

/-- A condition is made of each of those that are sent. -/
theorem made_eq :
    made inputs generation previous first = ⟨inputs.map fun input =>
      (input.stamped generation first).mergedOver (previous.bind (·.latest? input.type)) first⟩ := by
  simp [made, sent, mergedOver, ConditionInput.stamped, Function.comp_def]

/-- The document says of each type what was sent. -/
theorem said_made :
    (made inputs generation previous first).conditions.map (fun c => (c.type, c.status)) =
      inputs.map fun input => (input.type, input.status) := by
  rw [made_eq, List.map_map]
  rfl

include hdistinct in
theorem hasDistinctTypes_made : (made inputs generation previous first).HasDistinctTypes :=
  (hasDistinctTypes_sent hdistinct generation first).mergedOver previous first

include hdistinct in
/-- What is sent a second time, each condition with a status of its own, finds each as the first
time left it. -/
theorem made_again (status : ConditionInput → ConditionStatus) :
    made (inputs.map fun input => { input with status := status input }) generation
        (some (made inputs generation previous first)) second =
      ⟨inputs.map fun input => ((input.stamped generation first).mergedOver
        (previous.bind (·.latest? input.type)) first).reportedAgain (status input) second⟩ := by
  rw [made_eq, List.map_map, Document.mk.injEq]
  refine List.map_congr_left fun input hinput => ?_
  have hmade : (input.stamped generation first).mergedOver
      (previous.bind (·.latest? input.type)) first ∈
        (made inputs generation previous first).conditions := by
    rw [made_eq]
    exact List.mem_map_of_mem hinput
  have hlatest := (hasDistinctTypes_made hdistinct generation previous first).latest?_eq hmade
  change (made inputs generation previous first).latest? input.type = _ at hlatest
  rw [Function.comp_apply, Option.bind_some, hlatest]
  exact input.mergedOver_mergedOver ..

include hdistinct in
/-- What is sent a second time as it was makes the same document with a later time of the report. -/
theorem made_same :
    made inputs generation (some (made inputs generation previous first)) second =
      ⟨(made inputs generation previous first).conditions.map fun c =>
        { c with lastUpdatedTime := some second }⟩ := by
  have hagain := made_again hdistinct generation previous first second (·.status)
  rw [List.map_id'' (fun _ => rfl)] at hagain
  rw [hagain, made_eq, List.map_map, Document.mk.injEq]
  exact List.map_congr_left fun input _ => Condition.reportedAgain_same _ second

include hdistinct in
/-- What is sent a second time with other statuses changes the conditions of these statuses. -/
theorem made_changed (status : String → ConditionStatus) :
    made (inputs.map fun input => { input with status := status input.type }) generation
        (some (made inputs generation previous first)) second =
      ⟨(made inputs generation previous first).conditions.map fun c =>
        c.reportedAgain (status c.type) second⟩ := by
  rw [made_again hdistinct generation previous first second (status ·.type), made_eq, List.map_map]
  rfl

include hdistinct in
/-- Over its own text, what is sent is merged over the document that the text was made of. -/
theorem mergedOverStored_made (again : List ConditionInput) :
    (sent again generation second).mergedOverStored
        (some (made inputs generation previous first).render) second =
      ⟨made again generation (some (made inputs generation previous first)) second, none⟩ := by
  have hparse := parse_render_of_distinct (hasDistinctTypes_made hdistinct generation previous first)
  simp only [mergedOverStored, Option.map_some, hparse]
  rfl

end Again

/-- A valid report that is sent a second time makes the document that it made the first time, with
its second time as the time of the last report, whatever text it was merged over the first time.  If
some conditions have another status the second time, their time of change is the second time too,
and no other time of change moves, nor any time of creation. -/
theorem resending_moves_report_time_only {inputs : List ConditionInput}
    (hvalid : checkInputs inputs = .ok ()) (generation : Int64) (stored : Option String)
    (first second : Instant) :
    ∃ d again, ofInputs inputs generation first = .ok d ∧
      ofInputs inputs generation second = .ok again ∧
      let before := (d.mergedOverStored stored first).document
      before.conditions.map (fun c => (c.type, c.status)) =
          inputs.map (fun input => (input.type, input.status)) ∧
      again.mergedOverStored (some before.render) second =
          ⟨⟨before.conditions.map fun c => { c with lastUpdatedTime := some second }⟩, none⟩ ∧
      ∀ status : String → ConditionStatus, ∃ changed,
        ofInputs (inputs.map fun input => { input with status := status input.type }) generation
            second = .ok changed ∧
        changed.mergedOverStored (some before.render) second =
          ⟨⟨before.conditions.map fun c => { c with
              status := status c.type
              lastTransitionTime := if status c.type = c.status then c.lastTransitionTime else second
              lastUpdatedTime := some second }⟩, none⟩ := by
  have hdistinct := (checkInputs_eq_ok_iff.mp hvalid).2
  have hchanged : ∀ status : String → ConditionStatus,
      ((inputs.map fun input => { input with status := status input.type }).map
        (·.type)).Nodup := by
    intro status
    rwa [List.map_map]
  refine ⟨_, _, ofInputs_of_nodup hdistinct .., ofInputs_of_nodup hdistinct .., ?_⟩
  rw [document_mergedOverStored, ← made]
  refine ⟨said_made .., ?_, fun status => ⟨_, ofInputs_of_nodup (hchanged status) .., ?_⟩⟩
  · rw [mergedOverStored_made hdistinct, made_same hdistinct]
  · rw [mergedOverStored_made hdistinct, made_changed hdistinct]
    rfl

/-- One condition that is waited for and one that holds. -/
def sampleInputs : List ConditionInput :=
  [⟨"Ready", .fails, some "Waiting", none⟩, ⟨"Applied", .holds, none, none⟩]

/-- A history that does not tell when its type was first seen. -/
def sampleHistory : String :=
  "[\x7b\"type\":\"Applied\",\"status\":\"True\",\"lastTransitionTime\":\"1970-01-01T00:00:07Z\"\x7d]"

/-- A leap second. -/
def leapSecond : Instant :=
  ⟨default, 86399, 1500000000, by decide, by decide, by decide⟩

/-- The second report comes with an earlier time than the first, and says that all holds. -/
theorem resending_moves_report_time_only_sample :
    checkInputs sampleInputs = .ok () ∧
    ∃ d again changed, ofInputs sampleInputs 3 leapSecond = .ok d ∧
      ofInputs sampleInputs 3 default = .ok again ∧
      ofInputs (sampleInputs.map fun input => { input with status := .holds }) 3 default =
        .ok changed ∧
      let before := (d.mergedOverStored (some sampleHistory) leapSecond).document
      before.conditions.map (fun c => (c.type, c.status)) =
        [("Ready", .fails), ("Applied", .holds)] ∧
      again.mergedOverStored (some before.render) default =
        ⟨⟨before.conditions.map fun c => { c with lastUpdatedTime := some default }⟩, none⟩ ∧
      changed.mergedOverStored (some before.render) default =
        ⟨⟨before.conditions.map fun c => { c with
            status := .holds
            lastTransitionTime := if .holds = c.status then c.lastTransitionTime else default
            lastUpdatedTime := some default }⟩, none⟩ := by
  have hvalid : checkInputs sampleInputs = .ok () := by decide
  obtain ⟨d, again, hd, hagain, hsaid, hsame, hstatus⟩ :=
    resending_moves_report_time_only hvalid 3 (some sampleHistory) leapSecond default
  obtain ⟨changed, hchanged, hturned⟩ := hstatus fun _ => .holds
  exact ⟨hvalid, d, again, changed, hd, hagain, hchanged, hsaid, hsame, hturned⟩

end Document
end StatusBoard

import StatusBoard.Condition.Merge
import StatusBoard.Proofs.Condition.RoundTrip
set_option autoImplicit false

/-!
# Condition: merged documents

A merged document has the types of the incoming one, in its order.  So it can always be read back
from its text, and merging over a text that holds a document is merging over that document.
-/

namespace StatusBoard.Document

/-! ## What comes in -/

theorem ofList_eq_ok_iff {conditions : List Condition} {d : Document} :
    ofList conditions = .ok d ↔ (conditions.map (·.type)).Nodup ∧ d = ⟨conditions⟩ := by
  unfold ofList
  rw [← firstRepeat?_nil_eq_none_iff]
  cases hrepeat : repeatedType? conditions with
  | some type =>
      rw [repeatedType?] at hrepeat
      simp only [hrepeat, reduceCtorEq, false_and]
  | none =>
      rw [repeatedType?] at hrepeat
      simp only [hrepeat, Except.ok.injEq, true_and]
      exact eq_comm

/-- The conditions that are sent, each stamped with one generation and time. -/
def sent (inputs : List ConditionInput) (generation : Int64) (now : Instant) : Document :=
  ⟨inputs.map (·.stamped generation now)⟩

theorem types_sent (inputs : List ConditionInput) (generation : Int64) (now : Instant) :
    (sent inputs generation now).types = inputs.map (·.type) := by
  rw [sent, types, List.map_map]
  rfl

/-- What is sent makes a document exactly if its types differ. -/
theorem ofInputs_eq_ok_iff {inputs : List ConditionInput} {generation : Int64} {now : Instant}
    {d : Document} :
    ofInputs inputs generation now = .ok d ↔
      (inputs.map (·.type)).Nodup ∧ d = sent inputs generation now := by
  rw [ofInputs, ofList_eq_ok_iff, List.map_map]
  rfl

theorem ofInputs_of_nodup {inputs : List ConditionInput} (h : (inputs.map (·.type)).Nodup)
    (generation : Int64) (now : Instant) :
    ofInputs inputs generation now = .ok (sent inputs generation now) :=
  ofInputs_eq_ok_iff.mpr ⟨h, rfl⟩

theorem hasDistinctTypes_sent {inputs : List ConditionInput} (h : (inputs.map (·.type)).Nodup)
    (generation : Int64) (now : Instant) : (sent inputs generation now).HasDistinctTypes := by
  rw [HasDistinctTypes, types_sent]
  exact h

/-! ## The merged document -/

@[simp] theorem types_mergedOver (incoming : Document) (previous : Option Document)
    (now : Instant) : (incoming.mergedOver previous now).types = incoming.types := by
  simp [mergedOver, types, Condition.mergedOver, Function.comp_def]

theorem HasDistinctTypes.mergedOver {incoming : Document} (h : incoming.HasDistinctTypes)
    (previous : Option Document) (now : Instant) :
    (incoming.mergedOver previous now).HasDistinctTypes := by
  rw [HasDistinctTypes, types_mergedOver]
  exact h

/-- What a stored text counts as when something is merged over it. -/
def previousOf (stored : Option String) : Option Document :=
  stored.bind fun raw => (parse raw).toOption

theorem previousOf_some_of_parse {raw : String} {d : Document} (h : parse raw = .ok d) :
    previousOf (some raw) = some d := by
  simp only [previousOf, Option.bind_some, h]
  rfl

theorem document_mergedOverStored (incoming : Document) (stored : Option String) (now : Instant) :
    (incoming.mergedOverStored stored now).document =
      incoming.mergedOver (previousOf stored) now := by
  unfold mergedOverStored
  cases stored with
  | none => rfl
  | some raw =>
      simp only [Option.map_some, previousOf, Option.bind_some]
      cases parse raw with
      | error e => rfl
      | ok d => rfl

/-- Whatever is merged over whatever was there, the result is read back from its text. -/
theorem parse_render_mergedOver {incoming : Document} (h : incoming.HasDistinctTypes)
    (previous : Option Document) (now : Instant) :
    parse (incoming.mergedOver previous now).render = .ok (incoming.mergedOver previous now) :=
  parse_render_of_distinct (h.mergedOver previous now)

end StatusBoard.Document

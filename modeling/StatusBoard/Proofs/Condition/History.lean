import Mathlib.Data.List.Nodup
import Mathlib.Order.Bounds.Defs
import StatusBoard.Proofs.Condition.Merge
set_option autoImplicit false

/-!
# Condition: what a document tells of its history

A document is merged over the one before it, and only that one is seen.  Still its times tell of all
revisions: since when a type has been there without a gap, and since when it has had its status.
-/

namespace StatusBoard

/-- Conditions that a document was merged from, and the time of the merge. -/
structure Revision where
  conditions : List ConditionInput
  generation : Int64
  stamp : Instant
  deriving DecidableEq, Repr, Inhabited

namespace Revision

/-- The revision has a condition of the type. -/
def HasType (type : String) (rev : Revision) : Prop :=
  ∃ c ∈ rev.conditions, c.type = type

/-- The revision has a condition of the type with the status. -/
def HasStatus (type : String) (status : ConditionStatus) (rev : Revision) : Prop :=
  ∃ c ∈ rev.conditions, c.type = type ∧ c.status = status

end Revision

/-! ## Since when -/

/-- The position is the first from which on all revisions have a property. -/
def Since (history : List Revision) (p : Revision → Prop) (k : Nat) : Prop :=
  IsLeast {k | k < history.length ∧ ∀ rev ∈ history.drop k, p rev} k

/-- One more revision with the property changes nothing. -/
theorem Since.snoc {history : List Revision} {p : Revision → Prop} {k : Nat} (h : Since history p k)
    {rev : Revision} (hrev : p rev) : Since (history ++ [rev]) p k := by
  obtain ⟨⟨hlt, hall⟩, hleast⟩ := h
  refine ⟨⟨by simp; omega, ?_⟩, ?_⟩
  · intro other hother
    rw [List.drop_append_of_le_length (Nat.le_of_lt hlt)] at hother
    rcases List.mem_append.mp hother with hother | hother
    · exact hall other hother
    · rw [List.mem_singleton.mp hother]
      exact hrev
  · rintro j ⟨hj, hallj⟩
    by_cases hend : j < history.length
    · refine hleast ⟨hend, fun other hother => hallj other ?_⟩
      rw [List.drop_append_of_le_length (Nat.le_of_lt hend)]
      exact List.mem_append_left _ hother
    · exact Nat.le_of_lt (Nat.lt_of_lt_of_le hlt (Nat.le_of_not_lt hend))

/-- A property that the last revision lacked begins with the next. -/
theorem since_last {history : List Revision} {p : Revision → Prop}
    (hbefore : ∀ last ∈ history.getLast?, ¬ p last) {rev : Revision} (hrev : p rev) :
    Since (history ++ [rev]) p history.length := by
  refine ⟨⟨by simp, by simpa using hrev⟩, ?_⟩
  rintro j ⟨-, hall⟩
  apply Nat.le_of_not_lt
  intro hend
  have hne : history ≠ [] := by
    rintro rfl
    exact absurd hend (Nat.not_lt_zero j)
  refine hbefore _ (List.getLast?_eq_getLast_of_ne_nil hne) (hall _ ?_)
  rw [List.drop_append_of_le_length (Nat.le_of_lt hend)]
  apply List.mem_append_left _
  have hdrop : history.drop j ≠ [] := by
    rw [ne_eq, List.drop_eq_nil_iff]
    omega
  rw [← List.getLast_drop hdrop]
  exact List.getLast_mem hdrop

namespace Document

/-- The time of the revision since which all have had a property. -/
def StampedSince (history : List Revision) (p : Revision → Prop) (t : Instant) : Prop :=
  ∃ k rev, Since history p k ∧ history[k]? = some rev ∧ t = rev.stamp

/-- The document holds what the last revision said, and its times tell since when. -/
structure Follows (d : Document) (history : List Revision) : Prop where
  /-- The conditions are those of the last revision, in its order. -/
  said : ∃ last, history.getLast? = some last ∧
    (d.conditions.map fun c => (c.type, c.status, c.reason, c.message, c.observedGeneration)) =
      (last.conditions.map fun c => (c.type, c.status, c.reason, c.message, last.generation)) ∧
    ∀ c ∈ d.conditions, c.lastUpdatedTime = some last.stamp
  changed : ∀ c ∈ d.conditions,
    StampedSince history (Revision.HasStatus c.type c.status) c.lastTransitionTime
  created : ∀ c ∈ d.conditions, ∃ t,
    c.createdTime = some t ∧ StampedSince history (Revision.HasType c.type) t

theorem StampedSince.snoc {history : List Revision} {p : Revision → Prop} {t : Instant}
    (h : StampedSince history p t) {rev : Revision} (hrev : p rev) :
    StampedSince (history ++ [rev]) p t := by
  obtain ⟨k, old, hsince, hold, rfl⟩ := h
  refine ⟨k, old, hsince.snoc hrev, ?_, rfl⟩
  rw [List.getElem?_append_left hsince.1.1]
  exact hold

theorem stampedSince_last {history : List Revision} {p : Revision → Prop}
    (hbefore : ∀ last ∈ history.getLast?, ¬ p last) {rev : Revision} (hrev : p rev) :
    StampedSince (history ++ [rev]) p rev.stamp :=
  ⟨history.length, rev, since_last hbefore hrev, by simp, rfl⟩

/-! ## One more revision -/

/-- What a document that is merged over knows of the revisions up to the last: which types the
last had, and since when. -/
structure Remembers (previous : Option Document) (history : List Revision) : Prop where
  absent : ∀ type, previous.bind (·.latest? type) = none → ∀ last ∈ history.getLast?,
    ¬ last.HasType type
  status : ∀ type old, previous.bind (·.latest? type) = some old →
    ∀ last ∈ history.getLast?, ∀ status, last.HasStatus type status → old.status = status
  changed : ∀ type old, previous.bind (·.latest? type) = some old →
    StampedSince history (Revision.HasStatus type old.status) old.lastTransitionTime
  created : ∀ type old, previous.bind (·.latest? type) = some old →
    ∃ t, old.createdTime = some t ∧ StampedSince history (Revision.HasType type) t

theorem remembers_none : Remembers none [] where
  absent := by simp
  status := by simp
  changed := by simp
  created := by simp

theorem remembers_empty : Remembers (some empty) [] where
  absent := by simp
  status := by simp [latest?, empty]
  changed := by simp [latest?, empty]
  created := by simp [latest?, empty]

theorem latest?_eq_some {d : Document} {type : String} {old : Condition}
    (h : d.latest? type = some old) : old ∈ d.conditions ∧ old.type = type := by
  refine ⟨List.mem_reverse.mp (List.mem_of_find?_eq_some h), ?_⟩
  simpa using List.find?_some h

theorem latest?_eq_none {d : Document} {type : String} (h : d.latest? type = none) :
    ∀ c ∈ d.conditions, c.type ≠ type := by
  intro c hc
  simpa using List.find?_eq_none.mp h c (List.mem_reverse.mpr hc)

/-- Conditions of one type are one, if the types of a document differ. -/
theorem HasDistinctTypes.eq {d : Document} (h : d.HasDistinctTypes) {a b : Condition}
    (ha : a ∈ d.conditions) (hb : b ∈ d.conditions) (htype : a.type = b.type) : a = b :=
  List.inj_on_of_nodup_map h ha hb htype

/-- A document that follows a history remembers it. -/
theorem Follows.remembers {d : Document} {history : List Revision} (h : d.Follows history)
    (hdistinct : d.HasDistinctTypes) : Remembers (some d) history := by
  obtain ⟨last, hlast, hsaid, -⟩ := h.said
  have hconditions : ∀ c ∈ last.conditions, ∃ c' ∈ d.conditions, c'.type = c.type ∧
      c'.status = c.status := by
    intro c hc
    have hmem := List.mem_map_of_mem (f := fun c : ConditionInput =>
      (c.type, c.status, c.reason, c.message, last.generation)) hc
    rw [← hsaid] at hmem
    obtain ⟨c', hc', heq⟩ := List.mem_map.mp hmem
    simp only [Prod.mk.injEq] at heq
    exact ⟨c', hc', heq.1, heq.2.1⟩
  refine ⟨?_, ?_, ?_, ?_⟩
  · rintro type hnone last' hlast' ⟨c, hc, htype⟩
    rw [hlast] at hlast'
    cases hlast'
    obtain ⟨c', hc', htype', -⟩ := hconditions c hc
    exact latest?_eq_none hnone c' hc' (htype'.trans htype)
  · rintro type old hold last' hlast' status ⟨c, hc, htype, hstatus⟩
    rw [hlast] at hlast'
    cases hlast'
    obtain ⟨c', hc', htype', hstatus'⟩ := hconditions c hc
    obtain ⟨hmem, holdtype⟩ := latest?_eq_some hold
    rw [hdistinct.eq hmem hc' (holdtype.trans (htype'.trans htype).symm), hstatus', hstatus]
  · intro type old hold
    obtain ⟨hmem, rfl⟩ := latest?_eq_some hold
    exact h.changed old hmem
  · intro type old hold
    obtain ⟨hmem, rfl⟩ := latest?_eq_some hold
    exact h.created old hmem

/-- What is merged over a document that remembers a history follows the history
with one more revision. -/
theorem Remembers.follows {previous : Option Document} {history : List Revision}
    (h : Remembers previous history) (rev : Revision) :
    ((sent rev.conditions rev.generation rev.stamp).mergedOver previous rev.stamp).Follows
    (history ++ [rev]) where
  said := by
    refine ⟨rev, by simp, ?_, ?_⟩
    · simp [mergedOver, sent, Condition.mergedOver, ConditionInput.stamped]
    · intro c hc
      obtain ⟨old, -, rfl⟩ := List.mem_map.mp hc
      rfl
  changed := by
    intro c hc
    obtain ⟨stamped, hstamped, rfl⟩ := List.mem_map.mp hc
    obtain ⟨input, hinput, rfl⟩ := List.mem_map.mp hstamped
    have hnow : rev.HasStatus input.type input.status := ⟨input, hinput, rfl, rfl⟩
    cases hold : previous.bind (·.latest? input.type) with
    | none =>
        have hbefore : ∀ last ∈ history.getLast?, ¬ last.HasStatus input.type input.status := by
          rintro last hlast ⟨c, hc, htype, -⟩
          exact h.absent _ hold last hlast ⟨c, hc, htype⟩
        simpa [Condition.mergedOver, ConditionInput.stamped, hold]
          using stampedSince_last hbefore hnow
    | some old =>
        by_cases hstatus : old.status = input.status
        · have hkept := (h.changed _ _ hold).snoc (hstatus ▸ hnow)
          simpa [Condition.mergedOver, ConditionInput.stamped, hold, hstatus] using hkept
        · have hbefore : ∀ last ∈ history.getLast?, ¬ last.HasStatus input.type input.status := by
            intro last hlast hlaststatus
            exact hstatus (h.status _ _ hold last hlast _ hlaststatus)
          simpa [Condition.mergedOver, ConditionInput.stamped, hold, hstatus] using
            stampedSince_last hbefore hnow
  created := by
    intro c hc
    obtain ⟨stamped, hstamped, rfl⟩ := List.mem_map.mp hc
    obtain ⟨input, hinput, rfl⟩ := List.mem_map.mp hstamped
    have hnow : rev.HasType input.type := ⟨input, hinput, rfl⟩
    cases hold : previous.bind (·.latest? input.type) with
    | none =>
        refine ⟨rev.stamp, ?_, stampedSince_last (h.absent _ hold) hnow⟩
        simp [Condition.mergedOver, ConditionInput.stamped, hold]
    | some old =>
        obtain ⟨t, ht, hsince⟩ := h.created _ _ hold
        refine ⟨t, ?_, hsince.snoc hnow⟩
        simp [Condition.mergedOver, ConditionInput.stamped, hold, ht]

end Document
end StatusBoard

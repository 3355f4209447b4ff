import StatusBoard.Proofs.Condition.History
import StatusBoard.Proofs.Instant.Order
import StatusBoard.Uuid
set_option autoImplicit false

/-!
# Condition: times run forward

A document that is merged at a time no earlier than its last update keeps its times in order: each
condition was created, then changed, then updated, and no time of a change goes back.  A `Timeline`
is what a row tells of times, whatever else it holds.
-/

namespace StatusBoard

/-- Each condition was created, then changed, and was last updated at a time. -/
def Document.IsOrdered (d : Document) (updated : Instant) : Prop :=
  ∀ c ∈ d.conditions, ∃ created, c.createdTime = some created ∧
    created ≤ c.lastTransitionTime ∧ c.lastTransitionTime ≤ updated ∧
      c.lastUpdatedTime = some updated

theorem Document.isOrdered_empty (t : Instant) : empty.IsOrdered t := by
  intro c hc
  cases hc

/-- What is merged over an ordered document, no earlier than that was updated, is ordered. -/
theorem Document.isOrdered_mergedOver {previous : Option Document} {now : Instant}
    (h : ∀ d ∈ previous, ∃ updated ≤ now, d.IsOrdered updated) (inputs : List ConditionInput)
    (generation : Int64) : ((sent inputs generation now).mergedOver previous now).IsOrdered now := by
  intro c hc
  obtain ⟨stamped, hstamped, rfl⟩ := List.mem_map.mp hc
  obtain ⟨input, -, rfl⟩ := List.mem_map.mp hstamped
  cases hold : previous.bind (·.latest? input.type) with
  | none =>
      refine ⟨now, ?_, ?_, ?_, rfl⟩ <;>
        simp [Condition.mergedOver, ConditionInput.stamped, hold]
  | some old =>
      obtain ⟨d, hd, hlatest⟩ := Option.bind_eq_some_iff.mp hold
      obtain ⟨updated, hle, hordered⟩ := h d hd
      obtain ⟨created, hcreated, hchanged, hupdated, -⟩ :=
        hordered old (latest?_eq_some hlatest).1
      have hnow : old.lastTransitionTime ≤ now := hupdated.trans hle
      refine ⟨created, ?_, ?_, ?_, rfl⟩
      · simp [Condition.mergedOver, ConditionInput.stamped, hold, hcreated]
      · by_cases hstatus : old.status = input.status
        · simpa [Condition.mergedOver, ConditionInput.stamped, hold, hstatus] using hchanged
        · simpa [Condition.mergedOver, ConditionInput.stamped, hold, hstatus]
            using hchanged.trans hnow
      · by_cases hstatus : old.status = input.status
        · simpa [Condition.mergedOver, ConditionInput.stamped, hold, hstatus] using hnow
        · simp [Condition.mergedOver, ConditionInput.stamped, hold, hstatus]

/-- The time of a change is one that stood there before, or is now. -/
theorem Document.changed_mergedOver {incoming previous : Document} {now : Instant} {c : Condition}
    (h : c ∈ (incoming.mergedOver (some previous) now).conditions) :
    c.lastTransitionTime = now ∨ ∃ old ∈ previous.conditions,
      old.type = c.type ∧ old.lastTransitionTime = c.lastTransitionTime := by
  obtain ⟨input, -, rfl⟩ := List.mem_map.mp h
  cases hold : previous.latest? input.type with
  | none => simp [Condition.mergedOver, hold]
  | some old =>
      obtain ⟨hmem, htype⟩ := latest?_eq_some hold
      by_cases hstatus : old.status = input.status
      · right
        refine ⟨old, hmem, htype, ?_⟩
        simp [Condition.mergedOver, hold, hstatus]
      · simp [Condition.mergedOver, hold, hstatus]

/-! ## Timelines -/

/-- The times that a row tells of: its own, and those in its document. -/
structure Timeline where
  id : Uuid
  created : Instant
  updated : Instant
  document : Document
  deriving DecidableEq, Repr, Inhabited

namespace Timeline

/-- The row was created, then updated, and its conditions were last updated with it. -/
structure IsOrdered (k : Timeline) : Prop where
  created : k.created ≤ k.updated
  document : k.document.IsOrdered k.updated

/-- A later look shows the same row, and no time that has gone back. -/
structure Precedes (k later : Timeline) : Prop where
  id : later.id = k.id
  created : later.created = k.created
  updated : k.updated ≤ later.updated
  transitions : ∀ c ∈ k.document.conditions, ∀ c' ∈ later.document.conditions,
    c'.type = c.type → c.lastTransitionTime ≤ c'.lastTransitionTime

/-- What holds of the times of a row after every call. -/
structure IsSound (k : Timeline) : Prop extends k.IsOrdered where
  micro : k.updated.IsMicro
  distinct : k.document.HasDistinctTypes

/-- All that a later look shows to have changed has changed since.  Unlike `Precedes`, this
says something of a type that went and came back, so looks can be chained. -/
structure Continues (later k : Timeline) : Prop where
  id : later.id = k.id
  created : later.created = k.created
  updated : k.updated ≤ later.updated
  changed : ∀ c ∈ later.document.conditions, k.updated ≤ c.lastTransitionTime ∨
    ∃ old ∈ k.document.conditions,
      old.type = c.type ∧ old.lastTransitionTime = c.lastTransitionTime

theorem Continues.refl (k : Timeline) : k.Continues k where
  id := rfl
  created := rfl
  updated := le_refl k.updated
  changed := fun c hc => .inr ⟨c, hc, rfl, rfl⟩

theorem Continues.trans {k later latest : Timeline} (h : latest.Continues later)
    (h' : later.Continues k) : latest.Continues k where
  id := h.id.trans h'.id
  created := h.created.trans h'.created
  updated := h'.updated.trans h.updated
  changed := by
    intro c hc
    obtain hle | ⟨old, hold, htype, htime⟩ := h.changed c hc
    · exact .inl (h'.updated.trans hle)
    · rw [← htype, ← htime]
      exact h'.changed old hold

theorem Continues.precedes {k later : Timeline} (h : later.Continues k) (hsound : k.IsSound) :
    k.Precedes later where
  id := h.id
  created := h.created
  updated := h.updated
  transitions := by
    intro c hc c' hc' htype
    obtain hle | ⟨old, hold, hold', htime⟩ := h.changed c' hc'
    · obtain ⟨-, -, -, hupdated, -⟩ := hsound.document c hc
      exact hupdated.trans hle
    · rw [hsound.distinct.eq hc hold (htype.symm.trans hold'.symm), htime]

/-! ## Revisions -/

/-- The times of a row that is written with a first document. -/
def first (id : Uuid) (d : Document) (now : Instant) : Timeline :=
  ⟨id, now, now, d⟩

/-- The times of a row when conditions are merged over its document. -/
def revised (k : Timeline) (inputs : List ConditionInput) (generation : Int64) (now : Instant) :
    Timeline :=
  { k with
    updated := now
    document := (Document.sent inputs generation now).mergedOver (some k.document) now }

theorem isSound_first {id : Uuid} {d : Document} {now : Instant} (hmicro : now.IsMicro)
    (hordered : d.IsOrdered now) (hdistinct : d.HasDistinctTypes) : (first id d now).IsSound where
  created := le_refl now
  document := hordered
  micro := hmicro
  distinct := hdistinct

variable {k : Timeline} {now : Instant}

theorem IsSound.revised (h : k.IsSound) (hmicro : now.IsMicro) (hforward : k.updated ≤ now)
    {inputs : List ConditionInput} (hnodup : (inputs.map (·.type)).Nodup) (generation : Int64) :
    (k.revised inputs generation now).IsSound where
  created := h.created.trans hforward
  document := by
    apply Document.isOrdered_mergedOver
    rintro d ⟨⟩
    exact ⟨k.updated, hforward, h.document⟩
  micro := hmicro
  distinct := (Document.hasDistinctTypes_sent hnodup generation now).mergedOver _ now

theorem continues_revised (hforward : k.updated ≤ now) (inputs : List ConditionInput)
    (generation : Int64) : (k.revised inputs generation now).Continues k where
  id := rfl
  created := rfl
  updated := hforward
  changed := by
    intro c hc
    obtain hnow | hold := Document.changed_mergedOver hc
    · rw [hnow]
      exact .inl hforward
    · exact .inr hold

/-! ## Tables -/

/-- All rows of a table tell of times, and these are sound. -/
def AllSound (rows : List (Option Timeline)) : Prop :=
  ∀ x ∈ rows, ∃ k, x = some k ∧ k.IsSound

/-- All rows of a table are still there, in their places, and have gone on from what they were. -/
def AllContinue (before after : List (Option Timeline)) : Prop :=
  ∀ (i : Nat) (k : Timeline), before[i]? = some (some k) →
    ∃ later : Timeline, after[i]? = some (some later) ∧ later.Continues k

/-- Times in a table run forward: every row tells of them, before and after, each time in
order, and none has gone back from the one look to the other. -/
def RunForward (before after : List (Option Timeline)) : Prop :=
  ∀ (i : Nat) (x : Option Timeline), before[i]? = some x → ∃ k later : Timeline, x = some k ∧
    after[i]? = some (some later) ∧ k.IsOrdered ∧ later.IsOrdered ∧ k.Precedes later

theorem AllContinue.refl (rows : List (Option Timeline)) : AllContinue rows rows :=
  fun _ k hk => ⟨k, hk, .refl k⟩

theorem AllContinue.trans {before middle after : List (Option Timeline)}
    (h : AllContinue before middle) (h' : AllContinue middle after) : AllContinue before after := by
  intro i k hk
  obtain ⟨later, hlater, hcontinues⟩ := h i k hk
  obtain ⟨latest, hlatest, hcontinues'⟩ := h' i later hlater
  exact ⟨latest, hlatest, hcontinues'.trans hcontinues⟩

theorem AllContinue.runForward {before after : List (Option Timeline)}
    (h : AllContinue before after) (hbefore : AllSound before) (hafter : AllSound after) :
    RunForward before after := by
  intro i x hx
  obtain ⟨k, rfl, hsound⟩ := hbefore x (List.mem_of_getElem? hx)
  obtain ⟨later, hlater, hcontinues⟩ := h i k hx
  obtain ⟨later', hsome, hsound'⟩ := hafter _ (List.mem_of_getElem? hlater)
  cases hsome
  exact ⟨k, later, rfl, hlater, hsound.toIsOrdered, hsound'.toIsOrdered, hcontinues.precedes hsound⟩

/-- A row may be added to a table. -/
theorem AllSound.snoc {rows : List (Option Timeline)} (h : AllSound rows) (hsound : k.IsSound) :
    AllSound (rows ++ [some k]) ∧ AllContinue rows (rows ++ [some k]) := by
  constructor
  · intro x hx
    rcases List.mem_append.mp hx with hx | hx
    · exact h x hx
    · exact ⟨k, List.mem_singleton.mp hx, hsound⟩
  · intro i old hold
    obtain ⟨hi, -⟩ := List.getElem?_eq_some_iff.mp hold
    refine ⟨old, ?_, .refl old⟩
    rw [List.getElem?_append_left hi]
    exact hold

/-- Rows may be changed into such as go on from what they were. -/
theorem AllSound.map {Row : Type} {times : Row → Option Timeline} {rows : List Row}
    (h : AllSound (rows.map times)) {change : Row → Row}
    (hchange : ∀ row ∈ rows, ∀ k, times row = some k → k.IsSound →
      ∃ later, times (change row) = some later ∧ later.IsSound ∧ later.Continues k) :
    AllSound ((rows.map change).map times) ∧
      AllContinue (rows.map times) ((rows.map change).map times) := by
  have hrow : ∀ row ∈ rows, ∃ k later, times row = some k ∧ times (change row) = some later ∧
      later.IsSound ∧ later.Continues k := by
    intro row hrow
    obtain ⟨k, hk, hsound⟩ := h _ (List.mem_map_of_mem hrow)
    obtain ⟨later, hlater⟩ := hchange row hrow k hk hsound
    exact ⟨k, later, hk, hlater⟩
  constructor
  · intro x hx
    rw [List.map_map] at hx
    obtain ⟨row, hmem, rfl⟩ := List.mem_map.mp hx
    obtain ⟨-, later, -, hlater, hsound, -⟩ := hrow row hmem
    exact ⟨later, hlater, hsound⟩
  · intro i k hk
    rw [List.getElem?_map] at hk
    obtain ⟨row, hi, hk⟩ := Option.map_eq_some_iff.mp hk
    obtain ⟨k', later, hk', hlater, -, hcontinues⟩ := hrow row (List.mem_of_getElem? hi)
    cases hk.symm.trans hk'
    refine ⟨later, ?_, hcontinues⟩
    rw [List.getElem?_map, List.getElem?_map, hi, Option.map_some, Option.map_some, hlater]

end Timeline
end StatusBoard

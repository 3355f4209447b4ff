import StatusBoard.Condition.Document
set_option autoImplicit false

/-!
# Condition: merging a report into what is stored

What comes in replaces what was there.  The only thing that outlives the old document is the bookkeeping of
types that occur in both: the time of the first sight, and, as long as the status is the same, the time of
the last change.
-/

namespace StatusBoard

/-- The condition stamped at `now`, with the bookkeeping of the one of its type that it replaces. -/
def Condition.mergedOver (c : Condition) (old : Option Condition) (now : Instant) : Condition :=
  { c with
    lastTransitionTime :=
      match old with
      | some p => if p.status = c.status then p.lastTransitionTime else now
      | none => now
    createdTime := some ((old.bind (·.createdTime)).getD now)
    lastUpdatedTime := some now }

namespace Document

/-- The condition that bookkeeping for a type is taken from; should a document repeat the type, the
last. -/
def latest? (d : Document) (type : String) : Option Condition :=
  d.conditions.reverse.find? (·.type = type)

/-- The incoming document with the bookkeeping of the previous one. -/
def mergedOver (incoming : Document) (previous : Option Document) (now : Instant) : Document :=
  ⟨incoming.conditions.map fun c => c.mergedOver (previous.bind (·.latest? c.type)) now⟩

/-- A document merged over a stored text, and why the text could not be read, if so. -/
structure StoredMerge where
  document : Document
  historyError : Option DocumentError
  deriving DecidableEq, Repr, Inhabited

/-- Merges over a stored text.  A text that cannot be read counts as no previous document. -/
def mergedOverStored (incoming : Document) (previous : Option String) (now : Instant) : StoredMerge :=
  match previous.map parse with
  | none => ⟨incoming.mergedOver none now, none⟩
  | some (.ok d) => ⟨incoming.mergedOver (some d) now, none⟩
  | some (.error e) => ⟨incoming.mergedOver none now, some e⟩

end Document
end StatusBoard

import StatusBoard.Store.Fault
import StatusBoard.Store.Row
set_option autoImplicit false

/-!
# Store: transactions

An operation on the store reads and writes a draft of it.  The draft becomes the store when the operation
ends well; otherwise the store stays as it was.  An operation can be cancelled before it starts, or while it
runs: then it is carried out and given up at its last check.
-/

namespace StatusBoard

/-- Whether, and when, an operation is cancelled. -/
inductive Cancellation where
  | never
  /-- Before the operation starts, for example because its deadline has passed. -/
  | before
  /-- After it has started and before its last check. -/
  | underway
  deriving DecidableEq, Repr, Inhabited

namespace Cancellation

/-- The check when an operation starts. -/
def checkStart : Cancellation → Except StoreError Unit
  | before => .error .cancelled
  | never | underway => .ok ()

/-- The check before a transaction ends; the operation itself may have been the one to cancel. -/
def checkEnd (c : Cancellation) (byItself : Bool) : Except StoreError Unit :=
  if c = never && !byItself then .ok () else .error .cancelled

end Cancellation

/-- The store after an operation, and what the operation answers. -/
structure Answer (α : Type) where
  store : Store
  result : Except StoreError α

namespace Store

/-- The answer of an operation: its draft and value, or the store as it was and the error. -/
def commit {α : Type} (s : Store) (outcome : Except StoreError (Store × α)) : Answer α :=
  match outcome with
  | .ok (draft, value) => ⟨draft, .ok value⟩
  | .error e => ⟨s, .error e⟩

end Store
end StatusBoard

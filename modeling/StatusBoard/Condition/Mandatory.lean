import StatusBoard.Condition.Basic
set_option autoImplicit false

/-!
# Condition: the mandatory gate

Each kind of resource names the types that a report has to settle.  A report that omits one, or says it is
unknown, is no fault: it is discarded, so that a passing "not known yet" never overwrites known state.
-/

namespace StatusBoard

/-- Why a report was discarded; both lists are in byte order. -/
structure Rejection where
  missing : List String := []
  indeterminate : List String := []
  deriving DecidableEq, Repr, Inhabited

namespace Rejection

/-- Nothing is amiss. -/
def isEmpty (r : Rejection) : Bool :=
  r.missing.isEmpty && r.indeterminate.isEmpty

def write (r : Rejection) : Json.Value :=
  .object [("missing", .array (r.missing.map .text)), ("indeterminate", .array (r.indeterminate.map .text))]

/-- The text that tells what is amiss. -/
def message (r : Rejection) : String :=
  "incomplete or indeterminate mandatory conditions" ++
  (if r.missing.isEmpty then "" else "; missing: " ++ String.intercalate "," r.missing) ++
  (if r.indeterminate.isEmpty then "" else "; unknown: " ++ String.intercalate "," r.indeterminate)

end Rejection

/-- What conditions fall short of, given the mandatory types in byte order. -/
def shortfall (conditions : List ConditionInput) (mandatory : List String) : Rejection where
  missing := mandatory.filter fun type => (conditions.find? (·.type = type)).isNone
  indeterminate := mandatory.filter fun type =>
    match conditions.find? (·.type = type) with
    | some c => !c.status.isDeterminate
    | none => false

/-- Every mandatory type is there with a known status. -/
def passesMandatory (conditions : List ConditionInput) (mandatory : List String) :
    Except Rejection Unit :=
  let rejection := shortfall conditions mandatory
  if rejection.isEmpty then .ok () else .error rejection

end StatusBoard

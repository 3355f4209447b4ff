import StatusBoard.Condition.Basic
set_option autoImplicit false

/-!
# Condition: documents

A document is an ordered list of conditions, kept as JSON text in a column of a row.  `Document.ofList` and
`Document.parse` refuse one that repeats a type.
-/

namespace StatusBoard

/-- Why a stored document cannot be read back. -/
inductive DocumentError where
  /-- The text is not the JSON of a list of conditions. -/
  | unreadable
  | repeatedType (type : String)
  deriving DecidableEq, Repr, Inhabited

/-- The text that tells what is wrong. -/
def DocumentError.message : DocumentError → String
  | unreadable => "condition document is not valid JSON: not a list of conditions"
  | repeatedType type => "condition document repeats type " ++ type

/-- An ordered list of conditions. -/
structure Document where
  conditions : List Condition
  deriving DecidableEq, Repr, Inhabited

namespace Document

/-- The document without conditions. -/
def empty : Document := ⟨[]⟩

/-- The types in order. -/
def types (d : Document) : List String :=
  d.conditions.map (·.type)

/-- The first condition of a type. -/
def get? (d : Document) (type : String) : Option Condition :=
  d.conditions.find? (·.type = type)

/-- The first type that occurs a second time. -/
def repeatedType? (conditions : List Condition) : Option String :=
  firstRepeat? (conditions.map (·.type)) []

/-- The document of conditions whose types differ. -/
def ofList (conditions : List Condition) : Except ValidationError Document :=
  match repeatedType? conditions with
  | some type => .error (.duplicateConditionType type)
  | none => .ok ⟨conditions⟩

/-- Any list of conditions; repeats are not looked for here. -/
def read : Json.Reader Document := fun depth tree =>
  (Json.readList Condition.read depth tree).map Document.mk

def write (d : Document) : Json.Value :=
  .array (d.conditions.map Condition.write)

/-- The text that is stored. -/
def render (d : Document) : String :=
  d.write.render

/-- The document that a stored text holds. -/
def parse (raw : String) : Except DocumentError Document :=
  match Json.decode? read raw with
  | none => .error .unreadable
  | some d =>
    match repeatedType? d.conditions with
    | some type => .error (.repeatedType type)
    | none => .ok d

/-- The document of what is sent, stamped with its generation and time. -/
def ofInputs (inputs : List ConditionInput) (generation : Int64) (now : Instant) :
    Except ValidationError Document :=
  ofList (inputs.map (·.stamped generation now))

end Document
end StatusBoard

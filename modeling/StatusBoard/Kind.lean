import StatusBoard.Condition.Basic
set_option autoImplicit false

/-!
# Kind: the kinds of resource that have a status

The registry is the closed set of kinds whose resources adapters report on, each with the condition types
that a report has to settle.
-/

namespace StatusBoard

/-- What is asked of reports on one kind of resource: the mandatory types, in byte order. -/
structure KindSpec where
  mandatory : List String := []
  deriving DecidableEq, Repr, Inhabited

namespace KindSpec

def read (style : Json.Style) : Json.Reader KindSpec := fun depth tree => do
  let fields ← Json.readFields style ["mandatoryConditions"] depth tree
  let names ← fields.orDefault "mandatoryConditions" [] (Json.readList (Json.readScalarText style))
  some ⟨NameSet.ofList names⟩

def write (spec : KindSpec) : Json.Value :=
  .object [("mandatoryConditions", .array (spec.mandatory.map .text))]

end KindSpec

/-- The kinds in byte order. -/
structure KindRegistry where
  kinds : Dict KindSpec
  deriving DecidableEq, Repr, Inhabited

namespace KindRegistry

/-- No kinds. -/
def empty : KindRegistry := ⟨[]⟩

/-- The types that are mandatory unless something else is said. -/
def usualMandatory : List String := ["Applied", "Available", "Health"]

/-- Clusters and node pools with the usual mandatory types. -/
def reference : KindRegistry :=
  ⟨[("Cluster", ⟨usualMandatory⟩), ("NodePool", ⟨usualMandatory⟩)]⟩

/-- Kinds have names of the shape of condition types. -/
def checkKindName (kind : String) : Except ValidationError Unit :=
  if isPascalCase kind then .ok () else .error (.unknownKind kind)

/-- The names of a kind and of its mandatory types are well formed. -/
def checkKind (kind : String) (spec : KindSpec) : Except ValidationError Unit := do
  checkKindName kind
  checkAll checkConditionType spec.mandatory

/-- The registry with a kind added or replaced. -/
def insert (r : KindRegistry) (kind : String) (spec : KindSpec) : Except ValidationError KindRegistry := do
  checkKind kind spec
  return ⟨Dict.insert r.kinds kind spec⟩

/-- The registry with one mandatory set for every kind. -/
def setMandatoryEverywhere (r : KindRegistry) (types : List String) :
    Except ValidationError KindRegistry := do
  checkAll checkConditionType types
  return ⟨r.kinds.map fun (kind, _) => (kind, ⟨types⟩)⟩

/-- What is asked of reports on a kind. -/
def resolve (r : KindRegistry) (kind : String) : Except ValidationError KindSpec :=
  match Dict.get? r.kinds kind with
  | some spec => .ok spec
  | none => .error (.unknownKind kind)

/-- All names are well formed; reading a registry does not see to that. -/
def validate (r : KindRegistry) : Except ValidationError Unit :=
  checkAll (fun entry : String × KindSpec => checkKind entry.1 entry.2) r.kinds

def read (style : Json.Style) : Json.Reader KindRegistry := fun depth tree =>
  (Json.readDict (KindSpec.read style) depth tree).map KindRegistry.mk

def write (r : KindRegistry) : Json.Value :=
  .object (r.kinds.map fun (kind, spec) => (kind, spec.write))

end KindRegistry
end StatusBoard

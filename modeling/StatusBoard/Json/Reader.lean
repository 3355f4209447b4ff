import StatusBoard.Instant.Reading
import StatusBoard.Instant.Writing
import StatusBoard.Json.Value
import StatusBoard.Uuid
set_option autoImplicit false

/-!
# Json: typed readers

A `Reader α` takes the number of levels of nesting that are still allowed and a tree.  Readers do not
convert: a number is no text and `1.0` is no whole number.  A record is an object with the declared keys,
each at most once, among others that are skipped unread; or, on the wire, an array of its fields in the
order of their declaration.

Documents on the wire and hand-written settings files share these readers.  A settings file has no
quotation marks to tell texts from other scalars, so there a scalar may stand where a text is wanted; but its
records are written with their keys.
-/

namespace StatusBoard.Json

/-- Where a text comes from. -/
inductive Style where
  | wire
  | settings
  deriving DecidableEq, Repr, Inhabited

/-- The levels of nesting that a whole document may have. -/
def depthLimit : Nat := 127

/-- Reads a typed value from a tree that nests at most a number of containers. -/
abbrev Reader (α : Type) := Nat → Tree → Option α

/-- The value of a whole text. -/
def decode? {α : Type} (reader : Reader α) (s : String) : Option α :=
  (parse? s).bind (reader depthLimit)

/-! ## Scalars -/

/-- A text. -/
def readText : Reader String
  | _, .text value => value
  | _, _ => none

/-- A text, in a settings file also another scalar as it is written. -/
def readScalarText (style : Style) : Reader String := fun depth tree =>
  match style, tree with
  | .settings, .null => some "null"
  | .settings, .bool true => some "true"
  | .settings, .bool false => some "false"
  | .settings, .number numeral => some (String.ofList numeral.toChars)
  | _, tree => readText depth tree

/-- A whole number. -/
def readInt : Reader Int
  | _, .number numeral => numeral.toWhole?
  | _, _ => none

/-- A signed 64-bit number. -/
def readInt64 : Reader Int64 := fun depth tree => do
  let value ← readInt depth tree
  if Int64.minValue.toInt ≤ value && value ≤ Int64.maxValue.toInt then some (Int64.ofInt value) else none

/-- A natural number of at most 32 bits. -/
def readUInt32 : Reader UInt32 := fun depth tree => do
  let value ← readInt depth tree
  if 0 ≤ value && value < UInt32.size then some (UInt32.ofNat value.toNat) else none

/-- A natural number of at most 64 bits. -/
def readUInt64 : Reader UInt64 := fun depth tree => do
  let value ← readInt depth tree
  if 0 ≤ value && value < UInt64.size then some (UInt64.ofNat value.toNat) else none

/-- A timestamp. -/
def readInstant : Reader Instant := fun depth tree =>
  (readText depth tree).bind Instant.parseRelaxed?

/-- A row identity. -/
def readUuid : Reader Uuid := fun depth tree =>
  (readText depth tree).bind Uuid.parse?

/-- Opaque data. -/
def readValue : Reader Value :=
  Value.ofTree?

/-- A value or null. -/
def readNullable {α : Type} (reader : Reader α) : Reader (Option α)
  | _, .null => some none
  | depth, tree => (reader depth tree).map some

/-! ## Containers -/

/-- A list. -/
def readList {α : Type} (reader : Reader α) : Reader (List α)
  | depth + 1, .array items => items.mapM (reader depth)
  | _, _ => none

/-- Members under keys of any name, of several with one key the last. -/
def readDict {α : Type} (reader : Reader α) : Reader (Dict α)
  | depth + 1, .object members =>
    (members.mapM fun (member : Option String × Tree) => do
      let key ← member.1
      let value ← reader depth member.2
      some (key, value)).map Dict.ofPairs
  | _, _ => none

/-! ## Records -/

/-- The fields that a record is written with. -/
structure Fields where
  depth : Nat
  entries : List (String × Tree)
  deriving Repr, Inhabited

/-- The fields of a record with the declared names. -/
def readFields (style : Style) (names : List String) : Reader Fields
  | depth + 1, .object members => do
    let entries ← members.mapM fun (member : Option String × Tree) =>
      member.1.map fun key => (key, member.2)
    let entries := entries.filter (·.1 ∈ names)
    if (firstRepeat? (entries.map (·.1)) []).isNone then some { depth, entries } else none
  | depth + 1, .array items =>
    if style = .wire && items.length ≤ names.length then some { depth, entries := names.zip items }
    else none
  | _, _ => none

namespace Fields

/-- What a field is written as. -/
def find? (fields : Fields) (name : String) : Option Tree :=
  (fields.entries.find? (·.1 = name)).map (·.2)

/-- A field that has to be there. -/
def required {α : Type} (fields : Fields) (name : String) (reader : Reader α) : Option α :=
  (fields.find? name).bind (reader fields.depth)

/-- A field with a value of its own for when it is missing. -/
def orDefault {α : Type} (fields : Fields) (name : String) (value : α) (reader : Reader α) : Option α :=
  match fields.find? name with
  | some tree => reader fields.depth tree
  | none => some value

/-- A field that may be missing, but not null. -/
def given {α : Type} (fields : Fields) (name : String) (reader : Reader α) : Option (Option α) :=
  fields.orDefault name none fun depth tree => (reader depth tree).map some

/-- A field that may be missing or null. -/
def optional {α : Type} (fields : Fields) (name : String) (reader : Reader α) : Option (Option α) :=
  fields.orDefault name none (readNullable reader)

end Fields

/-! ## Writers of shared scalars -/

/-- A timestamp. -/
def writeInstant (t : Instant) : Value := .text t.toText

/-- A signed 64-bit number. -/
def writeInt64 (i : Int64) : Value := .int i.toInt

/-- A natural number. -/
def writeNat (n : Nat) : Value := .int n

/-- Texts under keys. -/
def writeTexts (d : Dict String) : Value := .object (d.map fun (key, value) => (key, .text value))

end StatusBoard.Json

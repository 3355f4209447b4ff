import StatusBoard.Store.Fault
import StatusBoard.Store.Row
import StatusBoard.Text.Decimal
set_option autoImplicit false

/-!
# Store: edits by hand

Someone with access to the database can overwrite any column of any row.  The tables keep their promises
even then: a column of whole numbers turns texts that look like numbers into numbers, a column of texts
turns numbers into texts, most columns cannot be null, and identities, and the names and keys of live rows,
stay unique.
-/

namespace StatusBoard

/-! ## Column types -/

namespace Cell

/-- A blank before or after a number. -/
def isPadding (c : Char) : Bool :=
  c = ' ' || (0x9 ≤ c.toNat && c.toNat ≤ 0xD)

/-- The text without the blanks around it. -/
def unpad (s : List Char) : List Char :=
  (((s.dropWhile isPadding).reverse).dropWhile isPadding).reverse

/-- The sign of a number, and its text without the sign. -/
def splitSign : List Char → Bool × List Char
  | '-' :: s => (true, s)
  | '+' :: s => (false, s)
  | s => (false, s)

/-- The exponent at the end of a number; `none` if something else is there.  One beyond all powers that matter
counts as the last of them. -/
def exponent? : List Char → Option Int
  | [] => some 0
  | c :: s =>
    let (negative, digits) := splitSign s
    if (c = 'e' || c = 'E') && !digits.isEmpty && digits.all Text.isDigit then
      let size := min (Text.numberOf digits) largestPower
      some (if negative then -(size : Int) else size)
    else none
where
  largestPower : Nat := 10000

/-- The whole number that a number with a fraction is, if it is one that fits. -/
def wholeOf? (x : Binary64) : Option Int64 :=
  let (n, d) := x.toRatio
  if n % d = 0 && Int64.minValue.toInt < n / d && n / d < Int64.maxValue.toInt then
    some (Int64.ofInt (n / d))
  else none

/-- The number that a text looks like. -/
def numberOf? (s : String) : Option Cell := do
  let (negative, s) := splitSign (unpad s.toList)
  let whole := s.takeWhile Text.isDigit
  let (fraction, s) := match s.dropWhile Text.isDigit with
    | '.' :: s => (some (s.takeWhile Text.isDigit), s.dropWhile Text.isDigit)
    | s => (none, s)
  let digits := whole ++ fraction.getD []
  let power ← exponent? s
  if digits.isEmpty then none
  else
    let value : Int := if negative then -(Text.numberOf whole : Int) else Text.numberOf whole
    if fraction.isNone && s.isEmpty && Int64.minValue.toInt ≤ value &&
        value ≤ Int64.maxValue.toInt then
      some (.int (Int64.ofInt value))
    else
      let (n, d) := Binary64.powerOfTen (Text.numberOf digits) (power - (fraction.getD []).length)
      match Binary64.roundRatio? n d with
      | none => some (.infinite negative)
      | some (mantissa, exponent) =>
        let x : Binary64 := { negative, mantissa, exponent }
        match wholeOf? x with
        | some i => some (.int i)
        | none => some (.real x)

/-- What a column of whole numbers keeps of a cell. -/
def inIntegerColumn : Cell → Cell
  | text s => (numberOf? s).getD (text s)
  | c => c

/-- What a column of texts keeps of a cell. -/
def inTextColumn : Cell → Cell
  | int i => text (String.ofList (Text.ofInt i.toInt))
  | c => c

end Cell

/-! ## Columns -/

/-- The row with a column overwritten; `none` if there is no such column. -/
def ResourceRow.set? (r : ResourceRow) (column : String) (value : Cell) : Option ResourceRow :=
  match column with
  | "id" => some { r with id := value.inTextColumn }
  | "kind" => some { r with kind := value.inTextColumn }
  | "name" => some { r with name := value.inTextColumn }
  | "labels" => some { r with labels := value.inTextColumn }
  | "spec" => some { r with spec := value.inTextColumn }
  | "generation" => some { r with generation := value.inIntegerColumn }
  | "status_conditions" => some { r with statusConditions := value.inTextColumn }
  | "created_time" => some { r with createdTime := value.inTextColumn }
  | "updated_time" => some { r with updatedTime := value.inTextColumn }
  | "deleted_time" => some { r with deletedTime := value.inTextColumn }
  | _ => none

/-- The row with a column overwritten; `none` if there is no such column. -/
def StatusRow.set? (r : StatusRow) (column : String) (value : Cell) : Option StatusRow :=
  match column with
  | "id" => some { r with id := value.inTextColumn }
  | "resource_type" => some { r with resourceType := value.inTextColumn }
  | "resource_id" => some { r with resourceId := value.inTextColumn }
  | "adapter" => some { r with adapter := value.inTextColumn }
  | "observed_generation" => some { r with observedGeneration := value.inIntegerColumn }
  | "conditions" => some { r with conditions := value.inTextColumn }
  | "data" => some { r with data := value.inTextColumn }
  | "metadata" => some { r with metadata := value.inTextColumn }
  | "created_time" => some { r with createdTime := value.inTextColumn }
  | "last_report_time" => some { r with lastReportTime := value.inTextColumn }
  | "deleted_time" => some { r with deletedTime := value.inTextColumn }
  | _ => none

/-! ## Constraints -/

/-- A column that may be null. -/
def isNullable (column : String) : Bool :=
  column ∈ ["id", "data", "metadata", "deleted_time"]

/-- Two rows have the same identity; null is like nothing. -/
def sameCell (a b : Cell) : Bool :=
  a ≠ .null && a = b

/-- Both rows are live and have the same name. -/
def ResourceRow.sameName (a b : ResourceRow) : Bool :=
  a.isLive && b.isLive && sameCell a.kind b.kind && sameCell a.name b.name

/-- Both rows are live and have the same key. -/
def StatusRow.sameKey (a b : StatusRow) : Bool :=
  a.isLive && b.isLive && sameCell a.resourceType b.resourceType && sameCell a.resourceId b.resourceId &&
  sameCell a.adapter b.adapter

/-- Overwrites the one row that has an identity, among rows that must differ from it.  Answers the rows
and how many were overwritten. -/
def editRows {α : Type} (identity : α → Cell) (change : α → Option α)
    (clash : (changed other : α) → Option String) (id : String) (rows : List α) :
    Except StoreError (List α × Nat) :=
  match rows.find? (identity · = .text id) with
  | none => .ok (rows, 0)
  | some row =>
    match change row with
    | none => .error (.database (.constraint "no such column"))
    | some changed =>
      match (rows.filter (identity · ≠ .text id)).findSome? (clash changed) with
      | some reason => .error (.database (.constraint reason))
      | none => .ok (rows.map fun r => if identity r = .text id then changed else r, 1)

/-- A column that may not be null is not set to null. -/
def checkNull (table column : String) (value : Cell) (rows : Nat) : Except StoreError Unit :=
  if value = .null && !isNullable column && 0 < rows then
    .error (.database (.constraint ("NOT NULL constraint failed: " ++ table ++ "." ++ column)))
  else .ok ()

namespace Store

/-- Overwrites a column of a resource. -/
def editResource (s : Store) (id column : String) (value : Cell) : Except StoreError (Store × Nat) := do
  let clash (changed other : ResourceRow) : Option String :=
    if sameCell changed.id other.id then some "UNIQUE constraint failed: resources.id"
    else if changed.sameName other then some "UNIQUE constraint failed: resources.kind, resources.name"
    else none
  let (resources, n) ← editRows ResourceRow.id (·.set? column value) clash id s.resources
  checkNull "resources" column value n
  return ({ s with resources }, n)

/-- Overwrites a column of a status. -/
def editStatus (s : Store) (id column : String) (value : Cell) : Except StoreError (Store × Nat) := do
  let clash (changed other : StatusRow) : Option String :=
    if sameCell changed.id other.id then some "UNIQUE constraint failed: adapter_statuses.id"
    else if changed.sameKey other then
      some ("UNIQUE constraint failed: adapter_statuses.resource_type, adapter_statuses.resource_id, " ++
        "adapter_statuses.adapter")
    else none
  let (statuses, n) ← editRows StatusRow.id (·.set? column value) clash id s.statuses
  checkNull "adapter_statuses" column value n
  return ({ s with statuses }, n)

end Store
end StatusBoard

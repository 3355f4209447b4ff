import StatusBoard.Filter.Expr
import StatusBoard.Number.Binary64
set_option autoImplicit false

/-!
# Store: cells

A cell of a table holds nothing, a number, a text or bytes.  Cells of different classes are ordered by
their class, in this order, whatever they hold; texts are ordered by their bytes, which for UTF-8 is the
order of their characters.
-/

namespace StatusBoard

/-- What a row holds in a column. -/
inductive Cell where
  | null
  | int (value : Int64)
  | real (value : Binary64)
  /-- A number beyond the range of the finite ones. -/
  | infinite (negative : Bool)
  | text (value : String)
  | blob (bytes : List UInt8)
  deriving DecidableEq, Repr, Inhabited

/-- The class of a cell. -/
inductive CellClass where
  | null
  | integer
  | real
  | text
  | blob
  deriving DecidableEq, Repr, Inhabited

/-- The name of a class in diagnostics. -/
def CellClass.name : CellClass → String
  | null => "Null"
  | integer => "Integer"
  | real => "Real"
  | text => "Text"
  | blob => "Blob"

namespace Cell

/-- The class of a cell. -/
def cellClass : Cell → CellClass
  | null => .null
  | int _ => .integer
  | real _ | infinite _ => .real
  | text _ => .text
  | blob _ => .blob

/-- The cell of a text that may be missing. -/
def ofText? : Option String → Cell
  | some s => text s
  | none => null

/-! ## Order -/

/-- The order of two numbers with fractions. -/
def compareReals (a b : Binary64) : Ordering :=
  let (an, ad) := a.toRatio
  let (bn, bd) := b.toRatio
  compare (an * bd) (bn * ad)

/-- The order of two lists of bytes. -/
def compareBytes : List UInt8 → List UInt8 → Ordering
  | [], [] => .eq
  | [], _ :: _ => .lt
  | _ :: _, [] => .gt
  | a :: as, b :: bs => (compare a b).then (compareBytes as bs)

/-- The place of a cell's class among the classes; numbers share one. -/
def classRank : Cell → Nat
  | null => 0
  | int _ | real _ | infinite _ => 1
  | text _ => 2
  | blob _ => 3

/-- The order of two cells. -/
def order : Cell → Cell → Ordering
  | int a, int b => compare a b
  | int a, real b => (b.compareInt a.toInt).swap
  | real a, int b => a.compareInt b.toInt
  | real a, real b => compareReals a b
  | infinite a, infinite b => compare b.toNat a.toNat
  | infinite a, int _ | infinite a, real _ => if a then .lt else .gt
  | int _, infinite b | real _, infinite b => if b then .gt else .lt
  | text a, text b => compareOfLessAndEq a b
  | blob a, blob b => compareBytes a b
  | a, b => compare a.classRank b.classRank

/-- The cells are alike or in order. -/
def precedes (a b : Cell) : Bool :=
  order a b != .gt

/-! ## Truth -/

/-- Whether a relation holds of two cells; not known if one of them is null. -/
def relate (r : Filter.Relation) : Cell → Cell → Option Bool
  | null, _ => none
  | _, null => none
  | a, b => some (r.holds (order a b))

end Cell
end StatusBoard

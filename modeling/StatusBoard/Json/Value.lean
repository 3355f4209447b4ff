import StatusBoard.Dict
import StatusBoard.Json.Tree
import StatusBoard.Number.Shortest
import StatusBoard.Text.Decimal
set_option autoImplicit false

/-!
# Json: values and their texts

A `Value` is what a typed reader keeps of opaque data and what every writer produces.  Objects of opaque
data hold their members in byte order of the keys, a repeated key with its last value; objects that a
writer makes hold them in the order in which they are declared.  `render` writes a value without blanks,
`renderPretty` over several lines.
-/

namespace StatusBoard.Json

/-- A number: whole, or with a fraction. -/
inductive Number where
  | whole (value : Int)
  | binary (value : Binary64)
  deriving DecidableEq, Repr, Inhabited

/-- A JSON value. -/
inductive Value where
  | null
  | bool (value : Bool)
  | number (value : Number)
  | text (value : String)
  | array (items : List Value)
  | object (members : List (String × Value))
  deriving Repr, Inhabited

/-! ## Numbers

A number without point and exponent is whole as long as it is a natural number below `2 ^ 64` or a
negative one not below `-2 ^ 63`.  All others, and minus zero, are binary.  Digits that a 64-bit
significand has no room for count as powers of ten before the point and not at all after it.
-/

/-- The bound of significands. -/
def significandBound : Nat := UInt64.size

/-- Takes in the digits before the point: the significand, and the number of digits it has no room for. -/
def takeWhole : Nat → List Char → Nat × Nat
  | significand, [] => (significand, 0)
  | significand, c :: digits =>
    let next := 10 * significand + Text.digitValue c
    if next < significandBound then takeWhole next digits else (significand, digits.length + 1)

/-- Takes in the digits after the point: the significand, and the number of digits it took. -/
def takeFraction : Nat → List Char → Nat × Nat
  | significand, [] => (significand, 0)
  | significand, c :: digits =>
    let next := 10 * significand + Text.digitValue c
    if next < significandBound then
      let (significand, taken) := takeFraction next digits
      (significand, taken + 1)
    else (significand, 0)

/-- The exponent that an exponent text writes, zero if it is empty. -/
def exponentOf : List Char → Int
  | _ :: '-' :: digits => -(Text.numberOf digits : Int)
  | _ :: '+' :: digits => Text.numberOf digits
  | _ :: digits => Text.numberOf digits
  | [] => 0

/-- The number with a fraction that a numeral writes, if it is finite. -/
def Numeral.toBinary? (n : Numeral) : Option Binary64 :=
  let (significand, surplus) := takeWhole 0 n.whole
  let (significand, taken) := takeFraction significand n.fraction
  Binary64.ofDecimal? n.negative significand (surplus - taken + exponentOf n.exponent)

/-- The whole number that a numeral writes, if it is one. -/
def Numeral.toWhole? (n : Numeral) : Option Int :=
  if n.fraction.isEmpty && n.exponent.isEmpty then
    let magnitude := Text.numberOf n.whole
    if n.negative then
      if 0 < magnitude && Int64.minValue.toInt ≤ -(magnitude : Int) then some (-(magnitude : Int))
      else none
    else if magnitude < UInt64.size then some magnitude else none
  else none

/-- The number that a numeral writes, if it is in range. -/
def Numeral.toNumber? (n : Numeral) : Option Number :=
  match n.toWhole? with
  | some value => some (.whole value)
  | none => n.toBinary?.map .binary

/-- The numeral as it was written. -/
def Numeral.toChars (n : Numeral) : List Char :=
  (if n.negative then ['-'] else []) ++ n.whole ++
  (if n.fraction.isEmpty then [] else '.' :: n.fraction) ++ n.exponent

/-- The text of a number. -/
def Number.toChars : Number → List Char
  | .whole value => Text.ofInt value
  | .binary value => value.toText

/-! ## Writing -/

/-- A character inside a string. -/
def escapeChar (c : Char) : List Char :=
  if c = '"' then ['\\', '"']
  else if c = '\\' then ['\\', '\\']
  else if c = '\n' then ['\\', 'n']
  else if c = '\r' then ['\\', 'r']
  else if c = '\t' then ['\\', 't']
  else if c = '\x08' then ['\\', 'b']
  else if c = '\x0c' then ['\\', 'f']
  else if c.toNat < 0x20 then
    ['\\', 'u', '0', '0', Nat.digitChar (c.toNat / 16), Nat.digitChar (c.toNat % 16)]
  else [c]

/-- A string with its quotation marks. -/
def stringChars (s : String) : List Char :=
  '"' :: s.toList.flatMap escapeChar ++ ['"']

mutual

/-- The text of a value without blanks. -/
def Value.toChars : Value → List Char
  | .null => ['n', 'u', 'l', 'l']
  | .bool true => ['t', 'r', 'u', 'e']
  | .bool false => ['f', 'a', 'l', 's', 'e']
  | .number n => n.toChars
  | .text s => stringChars s
  | .array items => '[' :: itemsChars items ++ [']']
  | .object members => '\x7b' :: membersChars members ++ ['\x7d']

/-- Items with commas between them. -/
def itemsChars : List Value → List Char
  | [] => []
  | [item] => item.toChars
  | item :: items => item.toChars ++ ',' :: itemsChars items

/-- Members with commas between them. -/
def membersChars : List (String × Value) → List Char
  | [] => []
  | [(key, value)] => stringChars key ++ ':' :: value.toChars
  | (key, value) :: members => stringChars key ++ ':' :: value.toChars ++ ',' :: membersChars members

end

/-- The text of a value without blanks. -/
def Value.render (v : Value) : String :=
  String.ofList v.toChars

/-- A new line with the indentation of a depth. -/
def newLine (depth : Nat) : List Char :=
  '\n' :: List.replicate (2 * depth) ' '

mutual

/-- The text of a value over several lines; empty containers stay on one. -/
def Value.prettyChars (depth : Nat) : Value → List Char
  | .array [] => ['[', ']']
  | .array items => '[' :: itemsPretty (depth + 1) items ++ newLine depth ++ [']']
  | .object [] => ['\x7b', '\x7d']
  | .object members => '\x7b' :: membersPretty (depth + 1) members ++ newLine depth ++ ['\x7d']
  | .null => ['n', 'u', 'l', 'l']
  | .bool true => ['t', 'r', 'u', 'e']
  | .bool false => ['f', 'a', 'l', 's', 'e']
  | .number n => n.toChars
  | .text s => stringChars s

/-- Items on a line each. -/
def itemsPretty (depth : Nat) : List Value → List Char
  | [] => []
  | [item] => newLine depth ++ item.prettyChars depth
  | item :: items => newLine depth ++ item.prettyChars depth ++ ',' :: itemsPretty depth items

/-- Members on a line each. -/
def membersPretty (depth : Nat) : List (String × Value) → List Char
  | [] => []
  | [(key, value)] => newLine depth ++ stringChars key ++ ':' :: ' ' :: value.prettyChars depth
  | (key, value) :: members =>
    newLine depth ++ stringChars key ++ ':' :: ' ' :: value.prettyChars depth ++
      ',' :: membersPretty depth members

end

/-- The text of a value over several lines, indented by two blanks a level. -/
def Value.renderPretty (v : Value) : String :=
  String.ofList (v.prettyChars 0)

/-! ## Reading

A value is read from a tree down to a bounded depth of nesting.
-/

mutual

/-- The value of a tree that nests at most `depth` containers. -/
def Value.ofTree? (depth : Nat) : Tree → Option Value
  | .null => some .null
  | .bool value => some (.bool value)
  | .number numeral => numeral.toNumber?.map .number
  | .text value => value.map .text
  | .array items =>
    match depth with
    | 0 => none
    | depth + 1 => (itemsOfTrees? depth items).map .array
  | .object members =>
    match depth with
    | 0 => none
    | depth + 1 => (membersOfTrees? depth members).map fun pairs => .object (Dict.ofPairs pairs)

/-- The values of the items of an array. -/
def itemsOfTrees? (depth : Nat) : List Tree → Option (List Value)
  | [] => some []
  | item :: items => do
    some ((← Value.ofTree? depth item) :: (← itemsOfTrees? depth items))

/-- The members of an object in the order in which they are written. -/
def membersOfTrees? (depth : Nat) : List (Option String × Tree) → Option (List (String × Value))
  | [] => some []
  | (key, value) :: members => do
    let key ← key
    let value ← Value.ofTree? depth value
    some ((key, value) :: (← membersOfTrees? depth members))

end

/-! ## Making values -/

/-- A whole number. -/
def Value.int (i : Int) : Value := .number (.whole i)

/-- A member that is left out if there is no value. -/
def optionalMember {α : Type} (key : String) (write : α → Value) : Option α → List (String × Value)
  | none => []
  | some x => [(key, write x)]

end StatusBoard.Json

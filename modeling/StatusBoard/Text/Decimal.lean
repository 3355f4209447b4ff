set_option autoImplicit false

/-!
# Text: decimal digits

Whole numbers as runs of ASCII digits: the fixed-width fields of a timestamp, the free-width numbers of a
command line, a filter and an environment variable, and the readers of both.  Digits outside ASCII are
no digits here.
-/

namespace StatusBoard.Text

/-! ## Writing -/

/-- The digit of a number below ten. -/
def digitChar (n : Nat) : Char :=
  Char.ofNat ('0'.toNat + n % 10)

/-- The last `width` decimal digits of a number, zeros in front. -/
def fixedDigits : Nat → Nat → List Char
  | 0, _ => []
  | width + 1, n => fixedDigits width (n / 10) ++ [digitChar n]

@[simp] theorem length_fixedDigits (width n : Nat) : (fixedDigits width n).length = width := by
  induction width generalizing n with
  | zero => rfl
  | succ width ih => simp [fixedDigits, ih]

/-- The decimal digits of a number, at least `width` of them. -/
def paddedDigits (width n : Nat) : List Char :=
  let digits := Nat.toDigits 10 n
  List.replicate (width - digits.length) '0' ++ digits

/-- The text of an integer: a minus sign if it is negative, then its digits. -/
def ofInt (i : Int) : List Char :=
  if i < 0 then '-' :: Nat.toDigits 10 i.natAbs else Nat.toDigits 10 i.natAbs

/-! ## Reading -/

/-- One of the ten ASCII digits. -/
def isDigit (c : Char) : Bool :=
  '0' ≤ c && c ≤ '9'

/-- The value of a digit. -/
def digitValue (c : Char) : Nat :=
  c.toNat - '0'.toNat

/-- The number that a run of digits writes. -/
def numberOf (digits : List Char) : Nat :=
  digits.foldl (fun n c => 10 * n + digitValue c) 0

/-- The digits at the start of a text, at most `limit` of them, and what follows. -/
def takeDigits : Nat → List Char → List Char × List Char
  | 0, s => ([], s)
  | _ + 1, [] => ([], [])
  | limit + 1, c :: s =>
    if isDigit c then
      let (digits, rest) := takeDigits limit s
      (c :: digits, rest)
    else ([], c :: s)

/-- A number of between `least` and `limit` digits at the start of a text, and what follows it. -/
def readNumber (least limit : Nat) (s : List Char) : Option (Nat × List Char) :=
  let (digits, rest) := takeDigits limit s
  if least ≤ digits.length then some (numberOf digits, rest) else none

/-- A whole text that is a natural number below `bound`: digits, with an optional plus sign. -/
def parseNat? (bound : Nat) (s : List Char) : Option Nat :=
  let digits := match s with
    | '+' :: rest => rest
    | s => s
  if !digits.isEmpty && digits.all isDigit && numberOf digits < bound then some (numberOf digits)
  else none

/-- A whole text that is a signed 64-bit number: digits, with an optional sign. -/
def parseInt64? (s : List Char) : Option Int64 :=
  let (negative, digits) := match s with
    | '-' :: rest => (true, rest)
    | '+' :: rest => (false, rest)
    | s => (false, s)
  let value : Int := if negative then -(numberOf digits : Int) else numberOf digits
  if !digits.isEmpty && digits.all isDigit && Int64.minValue.toInt ≤ value &&
      value ≤ Int64.maxValue.toInt then
    some (Int64.ofInt value)
  else none

end StatusBoard.Text

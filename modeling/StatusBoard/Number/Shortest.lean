import StatusBoard.Number.Binary64
set_option autoImplicit false

/-!
# Number: shortest decimal text

A binary64 number is written with the fewest digits that read back to it, and of those the nearest.  The
text is positional from `0.00001` up to sixteen digits before the point, always with a point, and has an
exponent beyond that, always with a sign and never with leading zeros.
-/

namespace StatusBoard.Binary64

/-- The number of decimal digits before the point of a positive ratio; zero or less for a ratio below
one, counting the zeros after the point. -/
def decimalPlace (numerator denominator : Nat) : Int :=
  if denominator ≤ numerator then (Nat.toDigits 10 (numerator / denominator)).length
  else
    let inverse := (Nat.toDigits 10 (denominator / numerator)).length
    if denominator ≤ numerator * Nat.pow 10 (inverse - 1) then 2 - (inverse : Int)
    else 1 - (inverse : Int)

/-- The magnitudes that round to a given one, as quarters of its last place: the two ends. -/
def neighbourhood (mantissa : Nat) (exponent : Int) : Nat × Nat :=
  let below := if mantissa = 1 <<< 52 && leastExponent < exponent then 1 else 2
  (4 * mantissa - below, 4 * mantissa + 2)

/-- The nearest decimal with `count` digits that rounds to the given magnitude, if there is one: its
digits as a number, and its power of ten. -/
def decimalWith? (mantissa : Nat) (exponent : Int) (count : Nat) : Option (Nat × Int) :=
  let (n, d) := shiftRatio 1 1 (2 - exponent)
  let place := decimalPlace (4 * mantissa * n) d
  let power := place - count
  let (low, high) := neighbourhood mantissa exponent
  -- everything below is measured in units of `10 ^ power`, as numerators over `scale`
  let (up, scale) :=
    if 0 ≤ power then (1, d * Nat.pow 10 power.toNat) else (Nat.pow 10 (-power).toNat, d)
  let value := 4 * mantissa * n * up
  let inside (c : Nat) : Bool :=
    if mantissa % 2 = 0 then low * n * up ≤ c * scale && c * scale ≤ high * n * up
    else low * n * up < c * scale && c * scale < high * n * up
  let lower := value / scale
  let distance := value - lower * scale
  match inside lower, inside (lower + 1) with
  | true, true =>
    if 2 * distance < scale || (2 * distance == scale && lower % 2 == 0) then some (lower, power)
    else some (lower + 1, power)
  | true, false => some (lower, power)
  | false, true => some (lower + 1, power)
  | false, false => none

/-- The digits and the power of ten of the shortest decimal of a positive magnitude. -/
def shortest (mantissa : Nat) (exponent : Int) : Nat × Int :=
  (((List.range 17).findSome? fun i => decimalWith? mantissa exponent (i + 1))).getD (mantissa, 0)

/-- Digits without the zeros at their end, and the power of ten that makes up for them. -/
def dropZeros (digits : List Char) (power : Int) : List Char × Int :=
  let kept := (digits.reverse.dropWhile (· == '0')).reverse
  (kept, power + (digits.length - kept.length : Nat))

/-- The text of an exponent of ten, with its sign. -/
def exponentText (power : Int) : List Char :=
  (if power < 0 then '-' else '+') :: Nat.toDigits 10 power.natAbs

/-- The text of a number. -/
def toText (x : Binary64) : List Char :=
  let sign := if x.negative then ['-'] else []
  if x.mantissa = 0 then sign ++ ['0', '.', '0']
  else
    let (number, power) := shortest x.mantissa x.exponent
    let (digits, power) := dropZeros (Nat.toDigits 10 number) power
    let place : Int := digits.length + power
    sign ++
      if 0 ≤ power && place ≤ 16 then digits ++ List.replicate power.toNat '0' ++ ['.', '0']
      else if 0 < place && place ≤ 16 then
        digits.take place.toNat ++ ['.'] ++ digits.drop place.toNat
      else if -5 < place && place ≤ 0 then
        ['0', '.'] ++ List.replicate (-place).toNat '0' ++ digits
      else
        let tail := 'e' :: exponentText (place - 1)
        match digits with
        | [] => tail
        | [d] => d :: tail
        | d :: rest => d :: '.' :: rest ++ tail

end StatusBoard.Binary64

set_option autoImplicit false

/-!
# Number: finite binary floating point

Opaque payloads may hold fractions.  They are kept as binary64 numbers, in exact arithmetic: a sign, a
mantissa and a power of two.  `roundRatio?` rounds a ratio of naturals to the nearest such magnitude, a
half going to the even neighbour, and `ofDecimal?` reads `significand * 10 ^ exponent` as one
multiplication or division by a rounded power of ten, which is how payloads are read everywhere here.
-/

namespace StatusBoard

/-- A finite binary64 number, `mantissa * 2 ^ exponent` with a sign.  The mantissa has at most 53 bits and,
above the least exponent, exactly 53. -/
structure Binary64 where
  negative : Bool
  mantissa : Nat
  exponent : Int
  deriving DecidableEq, Repr, Inhabited

namespace Binary64

/-- The least exponent; numbers below `2 ^ 52` units of it are subnormal. -/
def leastExponent : Int := -1074

/-- The largest exponent of a finite number. -/
def largestExponent : Int := 971

/-- A magnitude as a ratio of naturals. -/
def ratio (mantissa : Nat) (exponent : Int) : Nat × Nat :=
  if 0 ≤ exponent then (mantissa <<< exponent.toNat, 1) else (mantissa, 1 <<< (-exponent).toNat)

/-- The whole number nearest to a ratio, a half going to the even neighbour. -/
def roundHalfEven (numerator denominator : Nat) : Nat :=
  let quotient := numerator / denominator
  let twice := 2 * (numerator % denominator)
  if twice < denominator || (twice == denominator && quotient % 2 == 0) then quotient
  else quotient + 1

/-- A ratio divided by a power of two. -/
def shiftRatio (numerator denominator : Nat) (exponent : Int) : Nat × Nat :=
  if 0 ≤ exponent then (numerator, denominator <<< exponent.toNat)
  else (numerator <<< (-exponent).toNat, denominator)

/-- The magnitude nearest to a ratio; `none` if it lies beyond the finite range. -/
def roundRatio? (numerator denominator : Nat) : Option (Nat × Int) :=
  if numerator = 0 then some (0, leastExponent)
  else
    let guess : Int := max (Nat.log2 numerator - Nat.log2 denominator - 53) leastExponent
    let (n, d) := shiftRatio numerator denominator guess
    let exponent := if n / d < 1 <<< 53 then guess else guess + 1
    let (n, d) := shiftRatio numerator denominator exponent
    let mantissa := roundHalfEven n d
    let (mantissa, exponent) :=
      if mantissa = 1 <<< 53 then (1 <<< 52, exponent + 1) else (mantissa, exponent)
    if largestExponent < exponent then none else some (mantissa, exponent)

/-- A natural times a power of ten, as a ratio of naturals. -/
def powerOfTen (significand : Nat) (exponent : Int) : Nat × Nat :=
  if 0 ≤ exponent then (significand * Nat.pow 10 exponent.toNat, 1)
  else (significand, Nat.pow 10 (-exponent).toNat)

/-- A magnitude times a rounded power of ten, rounded. -/
def scaleUp? (x : Nat × Int) (power : Nat) : Option (Nat × Int) :=
  (roundRatio? (Nat.pow 10 power) 1).bind fun p =>
    let (n, d) := ratio x.1 x.2
    let (pn, pd) := ratio p.1 p.2
    roundRatio? (n * pn) (d * pd)

/-- A magnitude divided by a rounded power of ten, rounded. -/
def scaleDown? (x : Nat × Int) (power : Nat) : Option (Nat × Int) :=
  (roundRatio? (Nat.pow 10 power) 1).bind fun p =>
    let (n, d) := ratio x.1 x.2
    let (pn, pd) := ratio p.1 p.2
    roundRatio? (n * pd) (d * pn)

/-- The largest power of ten that is a finite number. -/
def largestPower : Nat := 308

/-- A magnitude divided by a power of ten of any size, in steps of at most `largestPower`; after four
steps nothing but zero is left. -/
def scaleDownBy? : Nat → Nat × Int → Nat → Option (Nat × Int)
  | 0, _, _ => some (0, leastExponent)
  | steps + 1, x, power =>
    if power ≤ largestPower then scaleDown? x power
    else (scaleDown? x largestPower).bind fun y => scaleDownBy? steps y (power - largestPower)

/-- The number `± significand * 10 ^ exponent`; `none` if it lies beyond the finite range. -/
def ofDecimal? (negative : Bool) (significand : Nat) (exponent : Int) : Option Binary64 := do
  let start ← roundRatio? significand 1
  let (mantissa, exponent) ←
    if start.1 = 0 then some start
    else if exponent < 0 then scaleDownBy? 4 start (-exponent).toNat
    else if exponent.toNat ≤ largestPower then scaleUp? start exponent.toNat
    else none
  some { negative, mantissa, exponent }

/-- The number as an exact ratio, the sign on the numerator. -/
def toRatio (x : Binary64) : Int × Nat :=
  let (n, d) := ratio x.mantissa x.exponent
  (if x.negative then -(n : Int) else n, d)

/-- How the number stands to an integer. -/
def compareInt (x : Binary64) (i : Int) : Ordering :=
  let (n, d) := x.toRatio
  compare n (i * d)

end Binary64
end StatusBoard

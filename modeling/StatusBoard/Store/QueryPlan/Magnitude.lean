set_option autoImplicit false

/-!
# Query plan: magnitudes

Numbers of rows and costs are only known roughly, so they are kept as ten times their binary logarithm.
Products are sums of magnitudes; `plus` is the magnitude of a sum.
-/

namespace StatusBoard.QueryPlan

/-- Ten times the binary logarithm of a number, rounded. -/
abbrev Magnitude := Int

namespace Magnitude

/-- The magnitude of a number, from its first four binary digits; zero for zero. -/
def ofNat (n : Nat) : Magnitude :=
  if n < 2 then 0
  else
    let eighths := ((n * 8) >>> n.log2) % 8
    10 * n.log2 + [0, 2, 3, 5, 6, 7, 8, 9].getD eighths 0

/-- What a smaller number adds to the magnitude of a larger one, by the distance of their magnitudes. -/
def increment (distance : Nat) : Magnitude :=
  if distance > 49 then 0
  else if distance > 31 then 1
  else
    [10, 10, 9, 9, 8, 8, 7, 7, 7, 6, 6, 6, 5, 5, 5, 4, 4, 4, 4, 3, 3, 3, 3, 3, 3,
     2, 2, 2, 2, 2, 2, 2].getD distance 0

/-- The magnitude of the sum of two numbers. -/
def plus (a b : Magnitude) : Magnitude :=
  max a b + increment (a - b).natAbs

/-- The magnitude of the logarithm of a number, given its own. -/
def logarithm (m : Magnitude) : Magnitude :=
  if m ≤ 10 then 0 else ofNat m.toNat - 33

end Magnitude
end StatusBoard.QueryPlan

import StatusBoard.Instant.Basic
import StatusBoard.Text.Decimal
set_option autoImplicit false

/-!
# Instant: timestamp texts

Two texts of an instant, both in universal time and both in the form `YYYY-MM-DDThh:mm:ss`.  Stored rows
use `toStorageText`: always six fraction digits, so that in the years 0 to 9999 the order of texts is the
order of instants.  JSON uses `toText`: no, three, six or nine fraction digits, the fewest that lose
nothing.  Years outside 0 to 9999 have a sign.
-/

namespace StatusBoard.Instant
open Text (fixedDigits paddedDigits)

/-- The year: four digits, or a sign and at least four. -/
def yearText (year : Int) : List Char :=
  if 0 ≤ year && year ≤ 9999 then fixedDigits 4 year.toNat
  else (if year < 0 then '-' else '+') :: paddedDigits 4 year.natAbs

/-- Everything before the fraction.  A leap second is written as second sixty. -/
def wholeText (t : Instant) : List Char :=
  yearText t.date.year ++ '-' :: fixedDigits 2 t.date.month ++ '-' :: fixedDigits 2 t.date.day ++
  'T' :: fixedDigits 2 (t.second / 3600) ++ ':' :: fixedDigits 2 (t.second / 60 % 60) ++
  ':' :: fixedDigits 2 (t.second % 60 + t.nano / 1000000000)

/-- The fraction with the fewest digits, in groups of three, that lose nothing. -/
def fractionText (nano : Nat) : List Char :=
  if nano = 0 then []
  else if nano % 1000000 = 0 then '.' :: fixedDigits 3 (nano / 1000000)
  else if nano % 1000 = 0 then '.' :: fixedDigits 6 (nano / 1000)
  else '.' :: fixedDigits 9 nano

/-- The stored text: microseconds, anything finer cut off. -/
def toStorageChars (t : Instant) : List Char :=
  wholeText t ++ '.' :: fixedDigits 6 (t.nano % 1000000000 / 1000) ++ ['Z']

/-- The stored text: microseconds, anything finer cut off. -/
def toStorageText (t : Instant) : String :=
  String.ofList t.toStorageChars

/-- The text in JSON. -/
def toText (t : Instant) : String :=
  String.ofList (wholeText t ++ fractionText (t.nano % 1000000000) ++ ['Z'])

/-- The text for people, with the offset written out. -/
def toDisplayText (t : Instant) : String :=
  String.ofList (wholeText t ++ fractionText (t.nano % 1000000000) ++ ['+', '0', '0', ':', '0', '0'])

end StatusBoard.Instant

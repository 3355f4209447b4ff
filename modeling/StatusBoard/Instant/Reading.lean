import StatusBoard.Instant.Basic
import StatusBoard.Text.Blank
import StatusBoard.Text.Decimal
set_option autoImplicit false

/-!
# Instant: reading timestamps

Two readers.  `parseStrict?` takes the profile of ISO 8601 that stored rows and filters use: every field in
full, any number of fraction digits of which nine count, and an offset.  `parseRelaxed?` takes what JSON
documents may hold: blanks around the parts, unpadded numbers, years of any length behind a sign, and
offsets in a few more spellings.  In both, second sixty is a leap second and the offset is required.
-/

namespace StatusBoard.Instant
open Text (isDigit isBlank trimLeft takeDigits readNumber numberOf)

/-- What follows an expected character. -/
def expect (c : Char) : List Char → Option (List Char)
  | [] => none
  | d :: s => if d = c then some s else none

/-- What follows the mark between date and time. -/
def expectTimeMark : List Char → Option (List Char)
  | [] => none
  | c :: s => if c = 'T' || c = 't' || c = ' ' then some s else none

/-- The nanoseconds of a fraction, if there is one: at least one digit, and those after the ninth
dropped. -/
def readFraction : List Char → Option (Nat × List Char)
  | '.' :: s =>
    let (digits, rest) := takeDigits 9 s
    if digits.isEmpty then none
    else some (numberOf digits * Nat.pow 10 (9 - digits.length), rest.dropWhile isDigit)
  | s => some (0, s)

/-- An offset from universal time in minutes: `Z`, or a sign, two digits of hours, what `separator`
skips, and two digits of minutes.  It is less than a day. -/
def readOffset (separator : List Char → Option (List Char)) : List Char → Option (Int × List Char)
  | [] => none
  | c :: s =>
    if c = 'Z' || c = 'z' then some (0, s)
    else do
      let sign : Int ← if c = '+' then some 1 else if c = '-' || c = '\u2212' then some (-1) else none
      let (hours, s) ← readNumber 2 2 s
      let s ← separator s
      let (minutes, s) ← readNumber 2 2 s
      if hours < 24 && minutes < 60 then some (sign * (60 * hours + minutes), s) else none

/-- The instant with these fields of a local time. -/
def ofFields? (year : Int) (month day hour minute second nano : Nat) (offset : Int) :
    Option Instant := do
  let date ← Date.of? year month day
  if hour < 24 && minute < 60 && second < 60 then
    ofLocal? date (3600 * hour + 60 * minute + second) nano offset
  else if hour < 24 && minute < 60 && second = 60 then
    ofLocal? date (3600 * hour + 60 * minute + 59) (nano + 1000000000) offset
  else none

/-! ## The strict form -/

/-- The instant that a whole text in the strict form names. -/
def parseStrictChars? (s : List Char) : Option Instant := do
  let (year, s) ← readNumber 4 4 s
  let s ← expect '-' s
  let (month, s) ← readNumber 2 2 s
  let s ← expect '-' s
  let (day, s) ← readNumber 2 2 s
  let s ← expectTimeMark s
  let (hour, s) ← readNumber 2 2 s
  let s ← expect ':' s
  let (minute, s) ← readNumber 2 2 s
  let s ← expect ':' s
  let (second, s) ← readNumber 2 2 s
  let (nano, s) ← readFraction s
  let (offset, s) ← readOffset (expect ':') s
  if s.isEmpty then ofFields? year month day hour minute second nano offset else none

/-- The instant that a whole text in the strict form names. -/
def parseStrict? (s : String) : Option Instant :=
  parseStrictChars? s.toList

/-! ## The relaxed form -/

/-- A year: up to four digits, or a sign and any number of digits. -/
def readYear (s : List Char) : Option (Int × List Char) :=
  match trimLeft s with
  | '-' :: s => (readNumber 1 s.length s).map fun (n, s) => (-(n : Int), s)
  | '+' :: s => (readNumber 1 s.length s).map fun (n, s) => ((n : Int), s)
  | s => (readNumber 1 4 s).map fun (n, s) => ((n : Int), s)

/-- A number of one or two digits after blanks. -/
def readShort (s : List Char) : Option (Nat × List Char) :=
  readNumber 1 2 (trimLeft s)

/-- An expected character after blanks. -/
def expectLoosely (c : Char) (s : List Char) : Option (List Char) :=
  expect c (trimLeft s)

/-- Skips colons and blanks. -/
def skipColons (s : List Char) : Option (List Char) :=
  some (s.dropWhile fun c => c = ':' || isBlank c)

/-- An offset in minutes: the letters `UTC` in any case, or one that `readOffset` takes. -/
def readLooseOffset (s : List Char) : Option (Int × List Char) :=
  match s with
  | u :: t :: c :: rest =>
    if u.toUpper = 'U' && t.toUpper = 'T' && c.toUpper = 'C' then some (0, rest)
    else readOffset skipColons s
  | s => readOffset skipColons s

/-- The instant that a whole text in the relaxed form names. -/
def parseRelaxedChars? (s : List Char) : Option Instant := do
  let (year, s) ← readYear s
  let s ← expectLoosely '-' s
  let (month, s) ← readShort s
  let s ← expectLoosely '-' s
  let (day, s) ← readShort s
  let s ← expectTimeMark s
  let (hour, s) ← readShort s
  let s ← expectLoosely ':' s
  let (minute, s) ← readShort s
  let s ← expectLoosely ':' s
  let (second, s) ← readShort s
  let (nano, s) ← readFraction s
  let (offset, s) ← readLooseOffset (trimLeft s)
  if (trimLeft s).isEmpty then ofFields? year month day hour minute second nano offset else none

/-- The instant that a whole text in the relaxed form names. -/
def parseRelaxed? (s : String) : Option Instant :=
  parseRelaxedChars? s.toList

end StatusBoard.Instant

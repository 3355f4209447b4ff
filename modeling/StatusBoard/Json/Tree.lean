set_option autoImplicit false

/-!
# Json: texts as they are written

`Json.parse?` reads a whole JSON text into a `Tree`, which keeps what typed readers have to tell apart:
how a number was written, members in their order with repeats, and strings whose escapes name half of a
surrogate pair only.  Such a string is no text, yet it does no harm in a place that nobody reads.  Any
depth of nesting is read here; readers of values bound it.

The grammar is the strict one: no comments, no trailing commas, no leading zeros, no raw control
characters, nothing after the value but blanks.
-/

namespace StatusBoard.Json

/-- A number as written: its digits before and after the point, and all that follows them, which is empty
or the exponent with its mark and sign. -/
structure Numeral where
  negative : Bool
  whole : List Char
  fraction : List Char
  exponent : List Char
  deriving DecidableEq, Repr, Inhabited

/-- A JSON text. -/
inductive Tree where
  | null
  | bool (value : Bool)
  | number (numeral : Numeral)
  /-- A string; `none` if it holds half of a surrogate pair. -/
  | text (value : Option String)
  | array (items : List Tree)
  | object (members : List (Option String × Tree))
  deriving Repr, Inhabited

/-! ## Strings -/

/-- A piece of a string: a character, or a UTF-16 unit written by an escape. -/
inductive Piece where
  | char (c : Char)
  | unit (code : Nat)
  deriving DecidableEq, Repr

/-- The value of a hexadecimal digit. -/
def hexValue? (c : Char) : Option Nat :=
  if '0' ≤ c && c ≤ '9' then some (c.toNat - '0'.toNat)
  else if 'a' ≤ c && c ≤ 'f' then some (c.toNat - 'a'.toNat + 10)
  else if 'A' ≤ c && c ≤ 'F' then some (c.toNat - 'A'.toNat + 10)
  else none

/-- The value of four hexadecimal digits. -/
def hexUnit? (a b c d : Char) : Option Nat := do
  some (((← hexValue? a) * 16 + (← hexValue? b)) * 256 + (← hexValue? c) * 16 + (← hexValue? d))

/-- The character that a letter stands for after a backslash. -/
def escapedChar? (c : Char) : Option Char :=
  match c with
  | '"' => some '"'
  | '\\' => some '\\'
  | '/' => some '/'
  | 'b' => some '\x08'
  | 'f' => some '\x0c'
  | 'n' => some '\n'
  | 'r' => some '\r'
  | 't' => some '\t'
  | _ => none

/-- The pieces of a string up to its closing quotation mark, and what follows that. -/
def readPieces : List Char → Option (List Piece × List Char)
  | [] => none
  | '"' :: s => some ([], s)
  | '\\' :: 'u' :: a :: b :: c :: d :: s => do
    let code ← hexUnit? a b c d
    let (pieces, s) ← readPieces s
    some (.unit code :: pieces, s)
  | '\\' :: e :: s => do
    let c ← escapedChar? e
    let (pieces, s) ← readPieces s
    some (.char c :: pieces, s)
  | c :: s =>
    if c.toNat < 0x20 || c = '\\' then none
    else do
      let (pieces, s) ← readPieces s
      some (.char c :: pieces, s)

/-- The code point of a surrogate pair. -/
def pairCode (high low : Nat) : Nat :=
  0x10000 + (high - 0xD800) * 0x400 + (low - 0xDC00)

/-- The characters of a string; `none` if a unit is half of a surrogate pair without the other half. -/
def joinPieces : List Piece → Option (List Char)
  | [] => some []
  | .char c :: pieces => (joinPieces pieces).map (c :: ·)
  | .unit high :: .unit low :: pieces =>
    if 0xD800 ≤ high && high ≤ 0xDBFF then
      if 0xDC00 ≤ low && low ≤ 0xDFFF then
        (joinPieces pieces).map (Char.ofNat (pairCode high low) :: ·)
      else none
    else if 0xDC00 ≤ high && high ≤ 0xDFFF then none
    else (joinPieces (.unit low :: pieces)).map (Char.ofNat high :: ·)
  | .unit code :: pieces =>
    if 0xD800 ≤ code && code ≤ 0xDFFF then none
    else (joinPieces pieces).map (Char.ofNat code :: ·)

/-- A string after its opening quotation mark. -/
def readString (s : List Char) : Option (Option String × List Char) :=
  (readPieces s).map fun (pieces, s) => ((joinPieces pieces).map String.ofList, s)

/-! ## Numbers -/

/-- One of the ten digits. -/
def isDigit (c : Char) : Bool :=
  '0' ≤ c && c ≤ '9'

/-- The digits of an exponent after its mark and sign. -/
def readExponentDigits (opening : List Char) (s : List Char) : Option (List Char × List Char) :=
  let digits := s.takeWhile isDigit
  if digits.isEmpty then none else some (opening ++ digits, s.dropWhile isDigit)

/-- The exponent at the start of a text, empty if there is none. -/
def readExponent : List Char → Option (List Char × List Char)
  | e :: sign :: s =>
    if e = 'e' || e = 'E' then
      if sign = '+' || sign = '-' then readExponentDigits [e, sign] s
      else readExponentDigits [e] (sign :: s)
    else some ([], e :: sign :: s)
  | [e] => if e = 'e' || e = 'E' then none else some ([], [e])
  | [] => some ([], [])

/-- The digits after the point, none if there is no point. -/
def readFraction : List Char → Option (List Char × List Char)
  | '.' :: s =>
    let digits := s.takeWhile isDigit
    if digits.isEmpty then none else some (digits, s.dropWhile isDigit)
  | s => some ([], s)

/-- A number at the start of a text. -/
def readNumeral (s : List Char) : Option (Numeral × List Char) := do
  let (negative, s) := match s with
    | '-' :: s => (true, s)
    | s => (false, s)
  let whole := s.takeWhile isDigit
  if whole.isEmpty || (whole.head? = some '0' && 1 < whole.length) then none
  else
    let (fraction, s) ← readFraction (s.dropWhile isDigit)
    let (exponent, s) ← readExponent s
    some ({ negative, whole, fraction, exponent }, s)

/-! ## Values -/

/-- A blank between tokens. -/
def isBlank (c : Char) : Bool :=
  c = ' ' || c = '\n' || c = '\r' || c = '\t'

/-- The text without the blanks it starts with. -/
def skipBlanks (s : List Char) : List Char :=
  s.dropWhile isBlank

mutual

/-- A value at the start of a text; the first argument bounds the steps. -/
def readTree : Nat → List Char → Option (Tree × List Char)
  | 0, _ => none
  | steps + 1, s =>
    match skipBlanks s with
    | 'n' :: 'u' :: 'l' :: 'l' :: s => some (.null, s)
    | 't' :: 'r' :: 'u' :: 'e' :: s => some (.bool true, s)
    | 'f' :: 'a' :: 'l' :: 's' :: 'e' :: s => some (.bool false, s)
    | '"' :: s => (readString s).map fun (value, s) => (.text value, s)
    | '[' :: s =>
      match skipBlanks s with
      | ']' :: s => some (.array [], s)
      | s => (readItems steps s).map fun (items, s) => (.array items, s)
    | '\x7b' :: s =>
      match skipBlanks s with
      | '\x7d' :: s => some (.object [], s)
      | s => (readMembers steps s).map fun (members, s) => (.object members, s)
    | s => (readNumeral s).map fun (numeral, s) => (.number numeral, s)

/-- The items of an array up to its closing bracket; there is at least one. -/
def readItems : Nat → List Char → Option (List Tree × List Char)
  | 0, _ => none
  | steps + 1, s => do
    let (item, s) ← readTree steps s
    match skipBlanks s with
    | ',' :: s =>
      let (items, s) ← readItems steps s
      some (item :: items, s)
    | ']' :: s => some ([item], s)
    | _ => none

/-- The members of an object up to its closing brace; there is at least one. -/
def readMembers : Nat → List Char → Option (List (Option String × Tree) × List Char)
  | 0, _ => none
  | steps + 1, s =>
    match skipBlanks s with
    | '"' :: s => do
      let (key, s) ← readString s
      match skipBlanks s with
      | ':' :: s =>
        let (value, s) ← readTree steps s
        match skipBlanks s with
        | ',' :: s =>
          let (members, s) ← readMembers steps s
          some ((key, value) :: members, s)
        | '\x7d' :: s => some ([(key, value)], s)
        | _ => none
      | _ => none
    | _ => none

end

/-- The value that a whole text writes.  Each character accounts for at most two steps. -/
def parse? (s : String) : Option Tree :=
  let s := s.toList
  match readTree (2 * s.length + 2) s with
  | some (tree, rest) => if (skipBlanks rest).isEmpty then some tree else none
  | none => none

end StatusBoard.Json

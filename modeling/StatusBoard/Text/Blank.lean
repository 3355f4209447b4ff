set_option autoImplicit false

/-!
# Text: blank characters

Labels, conditions and numbers that are given as text are trimmed of blanks, and filters are split at them.
A blank is any character with the Unicode property `White_Space`; core's `Char.isWhitespace` knows only four
of them.
-/

namespace StatusBoard.Text

/-- The character has the property `White_Space`. -/
def isBlank (c : Char) : Bool :=
  (0x9 ≤ c.toNat && c.toNat ≤ 0xD) || c.toNat == 0x20 || c.toNat == 0x85 || c.toNat == 0xA0 ||
  c.toNat == 0x1680 || (0x2000 ≤ c.toNat && c.toNat ≤ 0x200A) || c.toNat == 0x2028 ||
  c.toNat == 0x2029 || c.toNat == 0x202F || c.toNat == 0x205F || c.toNat == 0x3000

/-- The text without the blanks it starts with. -/
def trimLeft (s : List Char) : List Char :=
  s.dropWhile isBlank

/-- The text without the blanks at its two ends. -/
def trimChars (s : List Char) : List Char :=
  (trimLeft (trimLeft s).reverse).reverse

/-- The text holds nothing but blanks. -/
def isAllBlank (s : String) : Bool :=
  s.toList.all isBlank

/-- The parts of a text between the occurrences of a separator; there is always at least one. -/
def splitAt (separator : Char) : List Char → List (List Char)
  | [] => [[]]
  | c :: rest =>
    if c = separator then [] :: splitAt separator rest
    else match splitAt separator rest with
      | [] => [[c]]
      | part :: parts => (c :: part) :: parts

/-- The text before and after the first occurrence of a separator. -/
def splitFirst? (separator : Char) : List Char → Option (List Char × List Char)
  | [] => none
  | c :: rest =>
    if c = separator then some ([], rest)
    else (splitFirst? separator rest).map fun (before, after) => (c :: before, after)

/-- What follows the characters that a text starts with. -/
def afterChars? : (start : List Char) → List Char → Option (List Char)
  | [], s => some s
  | _ :: _, [] => none
  | c :: start, d :: s => if c = d then afterChars? start s else none

/-- What follows the text that another starts with. -/
def after? (start s : String) : Option String :=
  (afterChars? start.toList s.toList).map String.ofList

end StatusBoard.Text

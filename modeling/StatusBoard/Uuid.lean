import StatusBoard.Text.Quoted
set_option autoImplicit false

/-!
# Uuid: row identities

A UUID is thirty-two hexadecimal digits.  It is written in lower case with four hyphens, and read in four
forms and in any case: with hyphens, without, in braces, or behind `urn:uuid:`.
-/

namespace StatusBoard

/-- A 128-bit identity, as its hexadecimal digits. -/
structure Uuid where
  digits : List (Fin 16)
  length_digits : digits.length = 32
  deriving DecidableEq, Repr

namespace Uuid

instance : Inhabited Uuid :=
  ⟨⟨List.replicate 32 0, by simp⟩⟩

/-- The identity with these digits, if they are thirty-two. -/
def ofDigits? (digits : List (Fin 16)) : Option Uuid :=
  if h : digits.length = 32 then some ⟨digits, h⟩ else none

/-- A lower case hexadecimal digit. -/
def digitText (d : Fin 16) : Char :=
  if d.val < 10 then Char.ofNat ('0'.toNat + d.val) else Char.ofNat ('a'.toNat + d.val - 10)

/-- The value of a hexadecimal digit of either case. -/
def digitOf? (c : Char) : Option (Fin 16) :=
  if '0' ≤ c && c ≤ '9' then some (Fin.ofNat 16 (c.toNat - '0'.toNat))
  else if 'a' ≤ c && c ≤ 'f' then some (Fin.ofNat 16 (c.toNat - 'a'.toNat + 10))
  else if 'A' ≤ c && c ≤ 'F' then some (Fin.ofNat 16 (c.toNat - 'A'.toNat + 10))
  else none

/-- The five groups of digits with hyphens between them. -/
def hyphenate {α : Type} (hyphen : α) (s : List α) : List α :=
  s.take 8 ++ hyphen :: (s.drop 8).take 4 ++ hyphen :: (s.drop 12).take 4 ++
  hyphen :: (s.drop 16).take 4 ++ hyphen :: s.drop 20

/-- The written form. -/
def toChars (u : Uuid) : List Char :=
  hyphenate '-' (u.digits.map digitText)

/-- The written form. -/
def toText (u : Uuid) : String :=
  String.ofList u.toChars

/-- The identity written by thirty-two digits. -/
def parseSimple? (s : List Char) : Option Uuid :=
  (s.mapM digitOf?).bind ofDigits?

/-- The identity written by five groups of digits with hyphens between them. -/
def parseHyphenated? (s : List Char) : Option Uuid :=
  if s[8]? = some '-' && s[13]? = some '-' && s[18]? = some '-' && s[23]? = some '-' then
    parseSimple? (s.take 8 ++ (s.drop 9).take 4 ++ (s.drop 14).take 4 ++ (s.drop 19).take 4 ++
      s.drop 24)
  else none

/-- The identity that a text names in one of the four forms, told apart by their length. -/
def parse? (s : String) : Option Uuid :=
  let s := s.toList
  match s.length with
  | 32 => parseSimple? s
  | 36 => parseHyphenated? s
  | 38 =>
    if s.head? = some '\x7b' && s.getLast? = some '\x7d' then parseHyphenated? (s.drop 1).dropLast
    else none
  | 45 =>
    if (s.take 9).map Char.toLower = "urn:uuid:".toList then parseHyphenated? (s.drop 9) else none
  | _ => none

/-- The identity that numbers a row: version 4, a given digit for the variant, and the number in the
last twelve digits. -/
def numbered (variant : Fin 16) (n : Nat) : Uuid where
  digits := List.replicate 12 0 ++ [4, 0, 0, 0, variant, 0, 0, 0] ++
    (List.range 12).map fun i => Fin.ofNat 16 (n / Nat.pow 16 (11 - i))
  length_digits := by simp

/-- The version 4 identity made of sixteen random bytes. -/
def ofRandom? (bytes : List UInt8) : Option Uuid :=
  let digits := bytes.flatMap fun b => [Fin.ofNat 16 (b.toNat / 16), Fin.ofNat 16 b.toNat]
  ofDigits? (digits.mapIdx fun i d =>
    if i = 12 then 4 else if i = 16 then Fin.ofNat 16 (8 + d.val % 4) else d)

end Uuid
end StatusBoard

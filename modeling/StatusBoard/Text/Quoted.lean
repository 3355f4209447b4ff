import StatusBoard.Text.Unprintable
set_option autoImplicit false

/-!
# Text: quoting for diagnostics

A diagnostic puts the text it is about between quotation marks.  Inside, the mark itself and the
backslash are escaped by a backslash, the four common controls have a letter, every other unprintable
character is written as `\u{hex}` in lower case, and all else stands for itself.
-/

namespace StatusBoard.Text

/-- Lower case hexadecimal digits without leading zeros. -/
def hexDigits (n : Nat) : List Char :=
  Nat.toDigits 16 n

/-- One character inside quotation marks of the given kind. -/
def escapeChar (mark : Char) (c : Char) : List Char :=
  if c = mark || c = '\\' then ['\\', c]
  else if c = '\n' then ['\\', 'n']
  else if c = '\r' then ['\\', 'r']
  else if c = '\t' then ['\\', 't']
  else if c = '\x00' then ['\\', '0']
  else if isUnprintable c then ['\\', 'u', '\x7b'] ++ hexDigits c.toNat ++ ['\x7d']
  else [c]

/-- The text in double quotation marks. -/
def quoted (s : String) : String :=
  String.ofList ('"' :: s.toList.flatMap (escapeChar '"') ++ ['"'])

/-- The character in single quotation marks. -/
def quotedChar (c : Char) : String :=
  String.ofList ('\'' :: escapeChar '\'' c ++ ['\''])

end StatusBoard.Text

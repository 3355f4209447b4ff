import StatusBoard.Json.Tree
set_option autoImplicit false

/-!
# Settings: the layout of a file

A settings file is a YAML document in flow style, that is, a JSON text that people write and that lines mean
something in.  Some characters may not be in it at all, a key and its colon stand on one line and not too far
apart, a line outside of the braces does not start with a tab, and a string that goes on over several lines is
folded into one.  `toJson?` checks all that and answers the JSON text that says the same.
-/

namespace StatusBoard.Layout

/-! ## Characters -/

/-- A character that a file may hold: no control but tab and line breaks. -/
def isAllowed (c : Char) : Bool :=
  c = '\t' || c = '\n' || c = '\r' || (' ' ≤ c && c ≤ '~') || c.toNat = 0x85 ||
  (0xA0 ≤ c.toNat && c.toNat ≠ 0xFFFE && c.toNat ≠ 0xFFFF)

/-- A line break that is kept as it is when lines are folded. -/
def isSeparator (c : Char) : Bool :=
  c.toNat = 0x2028 || c.toNat = 0x2029

/-- A line break. -/
def isBreak (c : Char) : Bool :=
  c = '\n' || c = '\r' || c.toNat = 0x85 || isSeparator c

/-- A blank inside of a line. -/
def isSpace (c : Char) : Bool :=
  c = ' ' || c = '\t'

/-! ## Folding -/

/-- The blanks and line breaks between two words of a string. -/
inductive Gap where
  | spaces (spaces : List Char)
  | lines (first : Char) (more : List Char)
  deriving DecidableEq, Repr, Inhabited

namespace Gap

/-- A blank more.  Blanks around a line break do not count. -/
def addSpace : Gap → Char → Gap
  | spaces cs, c => spaces (cs ++ [c])
  | lines first more, _ => lines first more

/-- A line break more. -/
def addBreak : Gap → Char → Gap
  | spaces _, c => lines c []
  | lines first more, c => lines first (more ++ [c])

/-- A character of a gap inside a JSON string. -/
def written (c : Char) : List Char :=
  if c = '\t' then ['\\', 't'] else if isBreak c && !isSeparator c then ['\\', 'n'] else [c]

/-- What a gap is folded to: a single line break to a blank, and the first of several to nothing. -/
def folded : Gap → List Char
  | spaces cs => cs.flatMap written
  | lines first more =>
    if isSeparator first then (first :: more).flatMap written
    else if more.isEmpty then [' ']
    else more.flatMap written

end Gap

/-- A line starts with a mark between documents. -/
def startsWithMark : List Char → Bool
  | a :: b :: c :: d :: _ => (a = '-' || a = '.') && b = a && c = a && (isSpace d || isBreak d)
  | _ => false

/-- The unit of a surrogate pair that two hexadecimal digits start. -/
def startsSurrogate (a b : Char) : Bool :=
  (a = 'd' || a = 'D') && ('8' ≤ b && b ≤ '9' || 'a' ≤ b && b ≤ 'f' || 'A' ≤ b && b ≤ 'F')

/-- What a string holds, on one line, after a gap; `none` if it may not hold it. -/
def fold (gap : Gap) : List Char → Option (List Char)
  | [] => some gap.folded
  | '\\' :: 'u' :: a :: b :: s =>
    if startsSurrogate a b then none
    else (fold (.spaces []) s).map fun s => gap.folded ++ '\\' :: 'u' :: a :: b :: s
  | '\\' :: c :: s => (fold (.spaces []) s).map fun s => gap.folded ++ '\\' :: c :: s
  | '\r' :: '\n' :: s => if startsWithMark s then none else fold (gap.addBreak '\n') s
  | c :: s =>
    if isSpace c then fold (gap.addSpace c) s
    else if isBreak c then if startsWithMark s then none else fold (gap.addBreak c) s
    else (fold (.spaces []) s).map fun s => gap.folded ++ c :: s

/-! ## Keys -/

/-- How far the colon may be from the start of a key. -/
def keyReach : Nat := 1024

/-- If what follows a string makes it a key, its colon is in reach and on the same line. -/
def isAllowedKey (inside after : List Char) : Bool :=
  match Json.skipBlanks after with
  | ':' :: _ =>
    let key := inside ++ after.takeWhile Json.isBlank
    !key.any isBreak && key.length + 2 ≤ keyReach
  | _ => true

/-! ## Files -/

/-- A text split at the quotation marks that start and end strings: what is outside of strings and what is
inside, by turns. -/
def splitStrings : List Char → List (List Char)
  | [] => [[]]
  | '\\' :: c :: s =>
    match splitStrings s with
    | [] => [['\\', c]]
    | part :: parts => ('\\' :: c :: part) :: parts
  | '"' :: s => [] :: splitStrings s
  | c :: s =>
    match splitStrings s with
    | [] => [[c]]
    | part :: parts => (c :: part) :: parts

/-- The text put together again, with each string on one line. -/
def joinStrings : List (List Char) → Option (List Char)
  | [] => some []
  | [outside] => some outside
  | [_, _] => none
  | outside :: inside :: after :: parts => do
    let folded ← if isAllowedKey inside after then fold (.spaces []) inside else none
    let rest ← joinStrings (after :: parts)
    some (outside ++ '"' :: folded ++ '"' :: rest)

/-- No tab stands before the braces, nor on a line after them. -/
def hasPlainMargins (s : List Char) : Bool :=
  let tail := (s.reverse.takeWhile Json.isBlank).reverse
  !(s.takeWhile Json.isBlank).contains '\t' && !(tail.dropWhile (!isBreak ·)).contains '\t'

/-- The file says nothing. -/
def isEmpty (content : String) : Bool :=
  content.toList.all fun c => c = ' ' || isBreak c

/-- The JSON text that says the same as a file. -/
def toJson? (content : String) : Option String :=
  let s := content.toList
  if s.all isAllowed && hasPlainMargins s then (joinStrings (splitStrings s)).map String.ofList else none

end StatusBoard.Layout

import StatusBoard.Json5.Node
set_option autoImplicit false

/-!
# Json5: reading texts

`Node.parse?` reads a whole text.  Beyond strict JSON it takes comments and many kinds of blanks, single
quotes, names without quotes, a comma after the last item, plus signs, bare points, hexadecimal, infinity, and
not-a-number as null.  A text ends at its first zero character.
-/

namespace StatusBoard.Json5

/-! ## Blanks -/

/-- A blank or a line break, of ASCII or not. -/
def isBlank (c : Char) : Bool :=
  c = ' ' || (0x9 ≤ c.toNat && c.toNat ≤ 0xD) || c.toNat = 0xA0 || c.toNat = 0x1680 ||
  (0x2000 ≤ c.toNat && c.toNat ≤ 0x200A) || isSeparator c || c.toNat = 0x202F || c.toNat = 0x205F ||
  c.toNat = 0x3000 || c.toNat = 0xFEFF

/-- What follows the end of a block comment; `none` if it does not end. -/
def afterBlock? : List Char → Option (List Char)
  | [] => none
  | '*' :: '/' :: s => some s
  | _ :: s => afterBlock? s

/-- What follows the end of a line. -/
def afterLine : List Char → List Char
  | [] => []
  | c :: s => if c = '\n' || c = '\r' || isSeparator c then s else afterLine s

/-- The text without the blanks and comments it starts with; the first argument bounds the steps. -/
def skipBlanksWithin : Nat → List Char → List Char
  | 0, s => s
  | steps + 1, s =>
    match s with
    | '/' :: '*' :: t =>
      match afterBlock? t with
      | some t => skipBlanksWithin steps t
      | none => s
    | '/' :: '/' :: t => skipBlanksWithin steps (afterLine t)
    | c :: t => if isBlank c then skipBlanksWithin steps t else s
    | [] => []

/-- The text without the blanks and comments it starts with. -/
def skipBlanks (s : List Char) : List Char :=
  skipBlanksWithin s.length s

/-! ## Strings and names -/

/-- A hexadecimal digit. -/
def isHexDigit (c : Char) : Bool :=
  ('0' ≤ c && c ≤ '9') || ('a' ≤ c && c ≤ 'f') || ('A' ≤ c && c ≤ 'F')

/-- The form of a string that has one more escape of strict JSON. -/
def TextForm.withEscape : TextForm → TextForm
  | .plain => .escaped
  | form => form

/-- A string in progress: its form and its characters up to now, the last first. -/
abbrev Draft := TextForm × List Char

/-- A string up to its closing mark, and what follows that. -/
def readString (mark : Char) (draft : Draft) : List Char → Option (Node × List Char)
  | [] => none
  | '\\' :: 'u' :: a :: b :: c :: d :: s =>
    if isHexDigit a && isHexDigit b && isHexDigit c && isHexDigit d then
      readString mark (draft.1.withEscape, d :: c :: b :: a :: 'u' :: '\\' :: draft.2) s
    else none
  | '\\' :: 'x' :: a :: b :: s =>
    if isHexDigit a && isHexDigit b then readString mark (.relaxed, b :: a :: 'x' :: '\\' :: draft.2) s
    else none
  | '\\' :: '\r' :: '\n' :: s => readString mark (.relaxed, '\n' :: '\r' :: '\\' :: draft.2) s
  | '\\' :: c :: s =>
    if c ∈ ['"', '\\', '/', 'b', 'f', 'n', 'r', 't'] then
      readString mark (draft.1.withEscape, c :: '\\' :: draft.2) s
    else if c ∈ ['\'', '0', 'v', '\n', '\r'] || isSeparator c then
      readString mark (.relaxed, c :: '\\' :: draft.2) s
    else none
  | c :: s =>
    if c = mark then some (.text draft.1 draft.2.reverse, s)
    else if c.toNat < 0x20 || c = '\\' then none
    else readString mark (if c = '"' then .relaxed else draft.1, c :: draft.2) s

/-- A letter or digit of ASCII. -/
def isAlphanumeric (c : Char) : Bool :=
  ('0' ≤ c && c ≤ '9') || ('a' ≤ c && c ≤ 'z') || ('A' ≤ c && c ≤ 'Z')

/-- A character that a name without quotes may go on with. -/
def isNamePart (c : Char) : Bool :=
  isAlphanumeric c || c = '$' || c = '_' || (0x80 ≤ c.toNat && !isBlank c)

/-- The rest of a name without quotes, and what follows it. -/
def readNameParts (draft : Draft) : List Char → Node × List Char
  | '\\' :: 'u' :: a :: b :: c :: d :: s =>
    if isHexDigit a && isHexDigit b && isHexDigit c && isHexDigit d then
      readNameParts (.escaped, d :: c :: b :: a :: 'u' :: '\\' :: draft.2) s
    else (.text draft.1 draft.2.reverse, '\\' :: 'u' :: a :: b :: c :: d :: s)
  | c :: s =>
    if isNamePart c then readNameParts (draft.1, c :: draft.2) s
    else (.text draft.1 draft.2.reverse, c :: s)
  | [] => (.text draft.1 draft.2.reverse, [])

/-- A name without quotes, which does not start with a digit, and what follows it. -/
def readName (s : List Char) : Option (Node × List Char) :=
  let (name, rest) := readNameParts (.plain, []) s
  match s with
  | c :: _ => if rest.length < s.length && !('0' ≤ c && c ≤ '9') then some (name, rest) else none
  | [] => none

/-! ## Numbers and words -/

/-- The text starts with a word in any case. -/
def startsWithWord (word : String) (s : List Char) : Bool :=
  (s.take word.length).map Char.toLower = word.toList

/-- What follows a word in any case that no letter or digit follows. -/
def afterWord? (word : String) (s : List Char) : Option (List Char) :=
  if startsWithWord word s && !((s.drop word.length).head?.any isAlphanumeric) then
    some (s.drop word.length)
  else none

/-- The exponent at the start of a text, empty if there is none. -/
def takeExponent (s : List Char) : List Char × List Char :=
  let isDigit (c : Char) : Bool := '0' ≤ c && c ≤ '9'
  let (mark, t) := match s with
    | e :: sign :: t => if sign = '+' || sign = '-' then ([e, sign], t) else ([e], sign :: t)
    | t => (t, [])
  if (mark.head?.any fun e => e = 'e' || e = 'E') && t.head?.any isDigit then
    (mark ++ t.takeWhile isDigit, t.dropWhile isDigit)
  else ([], s)

/-- A number in decimal, given its minus sign if it has one. -/
def readDecimal (sign : List Char) (s : List Char) : Option (Node × List Char) :=
  let isDigit (c : Char) : Bool := '0' ≤ c && c ≤ '9'
  let whole := s.takeWhile isDigit
  let (hasPoint, fraction, s) := match s.dropWhile isDigit with
    | '.' :: t => (true, t.takeWhile isDigit, t.dropWhile isDigit)
    | t => (false, [], t)
  let (exponent, rest) := takeExponent s
  if (whole.isEmpty && fraction.isEmpty) || (whole.head? = some '0' && 1 < whole.length) then none
  else
    let form : NumberForm :=
      if hasPoint && (whole.isEmpty || fraction.isEmpty) then .barePoint
      else if hasPoint || !exponent.isEmpty then .fraction
      else .whole
    some (.number form (sign ++ whole ++ (if hasPoint then '.' :: fraction else []) ++ exponent), rest)

/-- A number, given its minus sign if it has one. -/
def readMagnitude (sign : List Char) (s : List Char) : Option (Node × List Char) :=
  match s with
  | '0' :: x :: d :: t =>
    if (x = 'x' || x = 'X') && isHexDigit d then
      some (.number .hexadecimal (sign ++ '0' :: x :: d :: t.takeWhile isHexDigit), t.dropWhile isHexDigit)
    else readDecimal sign s
  | s => readDecimal sign s

/-- The number that infinity counts as. -/
def infinite (sign : List Char) : Node :=
  .number .fraction (sign ++ "9e999".toList)

/-- A number behind its sign. -/
def readSigned (sign : List Char) (s : List Char) : Option (Node × List Char) :=
  if startsWithWord "infinity" s then some (infinite sign, s.drop 8)
  else if startsWithWord "inf" s then some (infinite sign, s.drop 3)
  else readMagnitude sign s

/-- A word that stands for a value.  The three of strict JSON are in lower case. -/
def readWord (s : List Char) : Option (Node × List Char) :=
  let strict (word : String) (value : Node) : Option (Node × List Char) :=
    if s.take word.length = word.toList then (afterWord? word s).map (value, ·) else none
  let relaxed (word : String) (value : Node) : Option (Node × List Char) :=
    (afterWord? word s).map (value, ·)
  (strict "true" (.bool true)).orElse fun _ => (strict "false" (.bool false)).orElse fun _ =>
  (strict "null" .null).orElse fun _ => (relaxed "inf" (infinite [])).orElse fun _ =>
  (relaxed "infinity" (infinite [])).orElse fun _ => (relaxed "nan" .null).orElse fun _ =>
  (relaxed "qnan" .null).orElse fun _ => relaxed "snan" .null

/-- A value that is no container, at the very start of a text. -/
def readScalar (s : List Char) : Option (Node × List Char) :=
  match s with
  | '"' :: t => readString '"' (.plain, []) t
  | '\'' :: t => readString '\'' (.plain, []) t
  | '+' :: t => readSigned [] t
  | '-' :: t => readSigned ['-'] t
  | c :: _ => if c = '.' || ('0' ≤ c && c ≤ '9') then readMagnitude [] s else readWord s
  | [] => none

/-! ## Values -/

/-- The levels of nesting that a text may have. -/
def depthLimit : Nat := 1000

/-- The name of a member: a string, or a name without quotes. -/
def readKey (s : List Char) : Option (Node × List Char) :=
  match readScalar s with
  | some (.text form name, rest) => some (.text form name, rest)
  | some _ => none
  | none => readName s

mutual

/-- A value at the start of a text; the first argument bounds the steps, the second the levels. -/
def readNode : Nat → Nat → List Char → Option (Node × List Char)
  | 0, _, _ => none
  | steps + 1, depth, s =>
    match skipBlanks s with
    | '[' :: s =>
      match depth with
      | 0 => none
      | depth + 1 =>
        match skipBlanks s with
        | ']' :: s => some (.array [], s)
        | s => (readItems steps depth s).map fun (items, s) => (.array items, s)
    | '\x7b' :: s =>
      match depth with
      | 0 => none
      | depth + 1 =>
        match skipBlanks s with
        | '\x7d' :: s => some (.object [], s)
        | s => (readMembers steps depth s).map fun (members, s) => (.object members, s)
    | s => readScalar s

/-- The items of an array up to its closing bracket; there is at least one. -/
def readItems : Nat → Nat → List Char → Option (List Node × List Char)
  | 0, _, _ => none
  | steps + 1, depth, s => do
    let (item, s) ← readNode steps depth s
    match skipBlanks s with
    | ',' :: s =>
      match skipBlanks s with
      | ']' :: s => some ([item], s)
      | s =>
        let (items, s) ← readItems steps depth s
        some (item :: items, s)
    | ']' :: s => some ([item], s)
    | _ => none

/-- The members of an object up to its closing brace; there is at least one. -/
def readMembers : Nat → Nat → List Char → Option (List (Node × Node) × List Char)
  | 0, _, _ => none
  | steps + 1, depth, s => do
    let (name, s) ← readKey (skipBlanks s)
    match skipBlanks s with
    | ':' :: s =>
      let (value, s) ← readNode steps depth s
      match skipBlanks s with
      | ',' :: s =>
        match skipBlanks s with
        | '\x7d' :: s => some ([(name, value)], s)
        | s =>
          let (members, s) ← readMembers steps depth s
          some ((name, value) :: members, s)
      | '\x7d' :: s => some ([(name, value)], s)
      | _ => none
    | _ => none

end

/-- The value that a whole text writes.  Each character accounts for at most two steps. -/
def Node.parse? (s : List Char) : Option Node :=
  let s := s.takeWhile (· ≠ '\x00')
  match readNode (2 * s.length + 2) depthLimit s with
  | some (node, rest) => if (skipBlanks rest).isEmpty then some node else none
  | none => none

end StatusBoard.Json5

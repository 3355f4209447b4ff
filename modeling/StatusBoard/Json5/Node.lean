set_option autoImplicit false

/-!
# Json5: values as they are stored

The database reads JSON with more patience than the wire does: comments, single quotes, names without quotes,
numbers with a bare point or in hexadecimal.  A `Node` keeps numbers and strings as they were written, since
they are written again in much the same way when a container is asked for as a text.  `render` writes the
strict JSON text of a node, and `decode` tells what a string with escapes stands for.
-/

namespace StatusBoard.Json5

/-- How a number is written. -/
inductive NumberForm where
  | whole
  | hexadecimal
  | fraction
  /-- With a point that lacks digits before or after it. -/
  | barePoint
  deriving DecidableEq, Repr, Inhabited

/-- How a string is written. -/
inductive TextForm where
  /-- Without escapes, and nothing in it needs one. -/
  | plain
  /-- With the escapes of strict JSON. -/
  | escaped
  /-- With escapes of its own, or quotation marks that need one. -/
  | relaxed
  /-- As the text itself, whatever it holds. -/
  | literal
  deriving DecidableEq, Repr, Inhabited

/-- A value. -/
inductive Node where
  | null
  | bool (value : Bool)
  | number (form : NumberForm) (written : List Char)
  | text (form : TextForm) (written : List Char)
  | array (items : List Node)
  /-- Names with their values, in order and with repeats. -/
  | object (members : List (Node × Node))
  /-- Something that makes no sense.  Where it ends may be known nevertheless. -/
  | damaged (hasEnd : Bool)
  deriving Repr, Inhabited

/-! ## Escapes -/

/-- The number of a hexadecimal digit. -/
def hexValue (c : Char) : Nat :=
  let code := c.toNat % 256
  (code + 9 * (code / 64 % 2)) % 16

/-- The number of four hexadecimal digits. -/
def hexUnit (a b c d : Char) : Nat :=
  hexValue a * 4096 + hexValue b * 256 + hexValue c * 16 + hexValue d

/-- One of the line breaks that are not ASCII. -/
def isSeparator (c : Char) : Bool :=
  c.toNat = 0x2028 || c.toNat = 0x2029

/-- A string without the escaped line breaks at its start. -/
def skipContinuations : List Char → List Char
  | '\\' :: '\n' :: s => skipContinuations s
  | '\\' :: '\r' :: '\n' :: s => skipContinuations s
  | '\\' :: '\r' :: s => skipContinuations s
  | '\\' :: c :: s => if isSeparator c then skipContinuations s else '\\' :: c :: s
  | s => s

theorem length_skipContinuations_le (s : List Char) : (skipContinuations s).length ≤ s.length := by
  fun_induction skipContinuations s <;> simp_all <;> omega

/-- The code that no escape can stand for, and that is left out. -/
def noCode : Nat := 0x99999

/-- What an escape stands for, given what follows its backslash, and what follows the escape.  Nothing is
left of a string that ends inside of one. -/
def unescapeSimple : List Char → Nat × List Char
  | 'u' :: a :: b :: c :: d :: s =>
    let high := hexUnit a b c d
    match s with
    | '\\' :: 'u' :: e :: f :: g :: h :: rest =>
      let low := hexUnit e f g h
      let isPair := 0xD800 ≤ high && high < 0xDC00 && 0xDC00 ≤ low && low < 0xE000
      (if isPair then 0x10000 + high % 1024 * 1024 + low % 1024 else high, if isPair then rest else s)
    | s => (high, s)
  | 'u' :: _ => (noCode, [])
  | 'x' :: a :: b :: s => (hexValue a * 16 + hexValue b, s)
  | 'x' :: _ => (noCode, [])
  | 'b' :: s => (0x08, s)
  | 'f' :: s => (0x0C, s)
  | 'n' :: s => (0x0A, s)
  | 'r' :: s => (0x0D, s)
  | 't' :: s => (0x09, s)
  | 'v' :: s => (0x0B, s)
  | '0' :: s => (0, s)
  | c :: s => (if c = '\'' || c = '"' || c = '/' || c = '\\' then c.toNat else noCode, s)
  | [] => (noCode, [])

theorem length_unescapeSimple_le (s : List Char) : (unescapeSimple s).2.length ≤ s.length := by
  unfold unescapeSimple
  split
  · dsimp only
    split
    · split <;> simp only [List.length_cons] <;> omega
    · simp only [List.length_cons]
      omega
  all_goals simp only [List.length_cons, List.length_nil]
  all_goals omega

/-- What the start of a string stands for, and the rest of the string.  An escaped line break stands for
nothing, but at the end of a string for the character zero. -/
def unescape (s : List Char) : Nat × List Char :=
  match s with
  | '\\' :: _ =>
    let t := skipContinuations s
    if t.length = s.length then unescapeSimple (s.drop 1)
    else match t with
      | [] => (0, [])
      | '\\' :: t => unescapeSimple t
      | c :: t => (c.toNat, t)
  | c :: s => (c.toNat, s)
  | [] => (0, [])

theorem length_unescape_lt (c : Char) (s : List Char) : (unescape (c :: s)).2.length < (c :: s).length := by
  have hskip := length_skipContinuations_le (c :: s)
  unfold unescape
  split
  · rename_i r h
    cases h
    have hsimple := length_unescapeSimple_le s
    dsimp only
    split
    · simpa using Nat.lt_succ_of_le hsimple
    · split
      · simp
      · rename_i t ht
        have hsimple := length_unescapeSimple_le t
        rw [ht] at hskip
        simp only [List.length_cons] at hskip ⊢
        omega
      · rename_i ht
        rw [ht] at hskip
        simp only [List.length_cons] at hskip ⊢
        omega
  · rename_i h
    cases h
    simp
  · rename_i h
    cases h

/-- The codes that a string with escapes stands for.  Halves of surrogate pairs stay as they are. -/
def decode (s : List Char) : List Nat :=
  match s with
  | [] => []
  | c :: s =>
    let rest := decode (unescape (c :: s)).2
    if c = '\\' && (unescape (c :: s)).1 = noCode then rest else (unescape (c :: s)).1 :: rest
termination_by s.length
decreasing_by exact length_unescape_lt c s

/-- The codes that a string stands for. -/
def TextForm.codes (form : TextForm) (written : List Char) : List Nat :=
  match form with
  | .plain | .literal => written.map Char.toNat
  | .escaped | .relaxed => decode written

/-! ## Writing -/

/-- A string with escapes of its own, with those of strict JSON. -/
def restrict : List Char → Option (List Char)
  | [] => some []
  | '"' :: s => (restrict s).map ('\\' :: '"' :: ·)
  | '\\' :: '\'' :: s => (restrict s).map ('\'' :: ·)
  | '\\' :: 'v' :: s => (restrict s).map ("\\u0009".toList ++ ·)
  | '\\' :: '0' :: s => (restrict s).map ("\\u0000".toList ++ ·)
  | '\\' :: 'x' :: a :: b :: s => (restrict s).map ("\\u00".toList ++ a :: b :: ·)
  | '\\' :: '\r' :: '\n' :: s => restrict s
  | '\\' :: '\r' :: s => restrict s
  | '\\' :: '\n' :: s => restrict s
  | '\\' :: c :: s =>
    if isSeparator c then restrict s
    else if c = 'x' || (0x2000 ≤ c.toNat && c.toNat < 0x3000) then none
    else (restrict s).map ('\\' :: c :: ·)
  | c :: s => if c = '\\' then none else (restrict s).map (c :: ·)

/-- A character of a text as strict JSON writes it. -/
def quoteChar (c : Char) : List Char :=
  let hex (n : Nat) : Char := "0123456789abcdef".toList[n]?.getD '0'
  if c = '"' || c = '\\' then ['\\', c]
  else if c = '\x08' then ['\\', 'b']
  else if c = '\t' then ['\\', 't']
  else if c = '\n' then ['\\', 'n']
  else if c = '\x0c' then ['\\', 'f']
  else if c = '\r' then ['\\', 'r']
  else if c.toNat < 0x20 then "\\u00".toList ++ [hex (c.toNat / 16), hex (c.toNat % 16)]
  else [c]

/-- A string between quotation marks. -/
def renderText (form : TextForm) (written : List Char) : Option (List Char) :=
  (match form with
    | .plain | .escaped => some written
    | .relaxed => restrict written
    | .literal => some (written.flatMap quoteChar)).map fun s => '"' :: s ++ ['"']

/-- A number in hexadecimal, in decimal; one that is too large for 64 bits is as good as infinite. -/
def renderHexadecimal (s : List Char) : Option (List Char) :=
  let (sign, digits) := match s with
    | '-' :: s => (['-'], s.drop 2)
    | '+' :: s => ([], s.drop 2)
    | s => ([], s.drop 2)
  let value := digits.foldl (fun n c => n * 16 + hexValue c) 0
  let isHex (c : Char) : Bool :=
    ('0' ≤ c && c ≤ '9') || ('a' ≤ c && c ≤ 'f') || ('A' ≤ c && c ≤ 'F')
  if !digits.all isHex then none
  else some (sign ++ if value < UInt64.size then Nat.toDigits 10 value else "9.0e999".toList)

/-- A number with a zero where digits lack after its point. -/
def fillPoint : List Char → List Char
  | [] => []
  | ['.'] => ['.', '0']
  | '.' :: c :: s =>
    if '0' ≤ c && c ≤ '9' then '.' :: c :: fillPoint s else '.' :: '0' :: c :: fillPoint s
  | c :: s => c :: fillPoint s

/-- A number as strict JSON writes it. -/
def renderNumber (form : NumberForm) (written : List Char) : Option (List Char) :=
  if written.isEmpty then none
  else match form with
    | .whole | .fraction => some written
    | .hexadecimal => renderHexadecimal written
    | .barePoint =>
      some (match written with
        | '-' :: '.' :: s => '-' :: '0' :: fillPoint ('.' :: s)
        | '.' :: s => '0' :: fillPoint ('.' :: s)
        | s => fillPoint s)

namespace Node

mutual

/-- The strict JSON text of a value, without blanks; `none` if something in it makes no sense. -/
def render : Node → Option (List Char)
  | null => some "null".toList
  | bool true => some "true".toList
  | bool false => some "false".toList
  | number form written => renderNumber form written
  | text form written => renderText form written
  | array items => do
    let parts ← renderAll items
    some ('[' :: (List.intercalate [','] parts ++ [']']))
  | object members => do
    let parts ← renderMembers members
    some ('\x7b' :: (List.intercalate [','] parts ++ ['\x7d']))
  | damaged _ => none

/-- The texts of several values. -/
def renderAll : List Node → Option (List (List Char))
  | [] => some []
  | node :: nodes => do
    let s ← node.render
    let rest ← renderAll nodes
    some (s :: rest)

/-- The texts of members. -/
def renderMembers : List (Node × Node) → Option (List (List Char))
  | [] => some []
  | (name, value) :: members => do
    let name ← name.render
    let value ← value.render
    let rest ← renderMembers members
    some ((name ++ ':' :: value) :: rest)

end

end Node
end StatusBoard.Json5

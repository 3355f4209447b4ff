import StatusBoard.Json5.Reader
set_option autoImplicit false

/-!
# Json5: what a query sees of a value

A query takes a member of an object, or goes through the elements of a value, and compares what it finds with
texts.  So all that it sees is nothing, some number, or a text.  Whatever a value has that makes no sense is
noticed only by those who come across it: every such function has no answer then.
-/

namespace StatusBoard.Json5

/-- What a query sees of a value. -/
inductive Sight where
  | nothing
  | number
  /-- A text, as the codes of its characters. -/
  | text (codes : List Nat)
  deriving DecidableEq, Repr, Inhabited

/-! ## Numbers -/

/-- A text without the blanks at its start. -/
def dropSpace (s : List Char) : List Char :=
  s.dropWhile fun c => c = ' ' || (0x9 ≤ c.toNat && c.toNat ≤ 0xD)

/-- A text without the sign at its start. -/
def dropSign : List Char → List Char
  | '-' :: s | '+' :: s => s
  | s => s

/-- A text is a whole number, blanks around it apart. -/
def isWhole (s : List Char) : Bool :=
  let digits := dropSign (dropSpace s)
  (digits.head?.any Char.isDigit) && (dropSpace (digits.dropWhile Char.isDigit)).isEmpty

/-- A text is a number with a point or an exponent or neither, blanks around it apart. -/
def isDecimal (s : List Char) : Bool :=
  let s := dropSign (dropSpace s)
  let whole := s.takeWhile Char.isDigit
  let (fraction, s) := match s.dropWhile Char.isDigit with
    | '.' :: t => (t.takeWhile Char.isDigit, t.dropWhile Char.isDigit)
    | t => ([], t)
  !(whole.isEmpty && fraction.isEmpty) && (dropSpace (takeExponent s).2).isEmpty

/-- A number can be read: one in hexadecimal has at most 64 bits, and one that should be whole has a fraction
at most if nothing stands before its point. -/
def isReadable (form : NumberForm) (written : List Char) : Bool :=
  match form with
  | .fraction | .barePoint => isDecimal written
  | .whole | .hexadecimal =>
    let s := if written.head? = some '-' then written.drop 1 else written
    match s with
    | '0' :: x :: digits =>
      if x = 'x' || x = 'X' then
        digits.all isHexDigit && (digits.dropWhile (· = '0')).length ≤ 16
      else isWhole s
    | s => isWhole s || (s.head? = some '.' && isDecimal s)

namespace Node

/-! ## Values -/

/-- What a query sees of a value; of a container, its text. -/
def sight? : Node → Option Sight
  | null => some .nothing
  | bool _ => some .number
  | number form written => if isReadable form written then some .number else none
  | text form written => some (.text (form.codes written))
  | damaged _ => none
  | node => node.render.map fun s => .text (s.map Char.toNat)

/-! ## Members -/

/-- A name is the key.  A name with escapes counts up to the first character zero. -/
def isNamed (key : String) (form : TextForm) (name : List Char) : Bool :=
  match form with
  | .plain | .literal => name = key.toList
  | .escaped | .relaxed => (decode name).takeWhile (· ≠ 0) = key.toList.map Char.toNat

/-- The first of some members that has the key, if there is one. -/
def findMember? (key : String) : List (Node × Node) → Option (Option Node)
  | [] => some none
  | (text form name, value) :: members =>
    if isNamed key form name then some (some value)
    else match value with
      | damaged false => none
      | _ => findMember? key members
  | _ :: _ => none

/-- What a query sees under a key; there is nothing to see in a value that is no object. -/
def member? (key : String) : Node → Option Sight
  | object members =>
    match findMember? key members with
    | some none => some .nothing
    | some (some value) => value.sight?
    | none => none
  | _ => some .nothing

/-! ## Elements -/

/-- The elements of a value: the items of an array, the values of an object, or the value itself. -/
def elements : Node → List Node
  | array items => items
  | object members => members.map (·.2)
  | node => [node]

/-- The character of a code; half of a surrogate pair is none. -/
def charOf (code : Nat) : Char :=
  if code.isValidChar then Char.ofNat code else '\uFFFD'

/-- What a query sees under a key of an element.  The text of an element is read once more. -/
def elementMember? (key : String) (element : Node) : Option Sight :=
  match element.sight? with
  | some (.text codes) => (parse? (codes.map charOf)).bind (·.member? key)
  | some _ => some .nothing
  | none => none

end Node
end StatusBoard.Json5

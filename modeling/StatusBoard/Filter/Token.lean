import StatusBoard.Filter.Expr
import StatusBoard.Text.Blank
import StatusBoard.Text.Quoted
import StatusBoard.Validation
set_option autoImplicit false

/-!
# Filter: tokens

A filter text is a row of tokens with blanks between them.  `tokens` cuts it up and keeps, with each token,
the number of bytes before it.  A token is as long as it can be; texts are in single quotation marks, and
a mark inside is written twice.
-/

namespace StatusBoard.Filter

/-- A word, a literal or a sign. -/
inductive Token where
  | field (name : String)
  | literal (value : Literal)
  | relation (relation : Relation)
  | opening
  | closing
  | andWord
  | orWord
  | notWord
  deriving DecidableEq, Repr, Inhabited

namespace Token

/-- What a diagnostic calls the token. -/
def describe : Token → String
  | field name => "field " ++ name
  | literal (.text value) => "string '" ++ value ++ "'"
  | literal (.int value) => "number " ++ String.ofList (Text.ofInt value.toInt)
  | literal (.bool value) => (Literal.bool value).toText
  | relation r => "operator " ++ r.text
  | opening => "'('"
  | closing => "')'"
  | andWord => "AND"
  | orWord => "OR"
  | notWord => "NOT"

end Token

/-- Why no token can be formed. -/
inductive TokenFault where
  | unterminatedText
  | loneExclamation
  | invalidNumber (digits : String)
  | unexpectedCharacter (c : Char)
  deriving DecidableEq, Repr, Inhabited

namespace TokenFault

/-- The text that tells what is wrong. -/
def message : TokenFault → String
  | unterminatedText => "unterminated string literal"
  | loneExclamation => "expected '=' after '!'"
  | invalidNumber digits => "invalid number " ++ digits
  | unexpectedCharacter c => "unexpected character " ++ Text.quotedChar c

end TokenFault

/-! ## Words -/

/-- A character that a word may start with. -/
def isWordStart (c : Char) : Bool :=
  isUpper c || isLower c || c = '_'

/-- A character that may follow in a word. -/
def isWordChar (c : Char) : Bool :=
  isAlphanumeric c || c = '_' || c = '.' || c = '-' || c = '/'

/-- A letter in lower case. -/
def lowerCase (c : Char) : Char :=
  if isUpper c then Char.ofNat (c.toNat + 32) else c

/-- The token that a word is: one of five that are known in any letter case, or a field. -/
def Token.ofWord (word : List Char) : Token :=
  match String.ofList (word.map lowerCase) with
  | "and" => .andWord
  | "or" => .orWord
  | "not" => .notWord
  | "true" => .literal (.bool true)
  | "false" => .literal (.bool false)
  | _ => .field (String.ofList word)

/-! ## Texts -/

/-- The text up to the closing quotation mark, and the number of characters with the mark. -/
def quotedText? : List Char → Option (List Char × Nat)
  | [] => none
  | '\'' :: '\'' :: rest => (quotedText? rest).map fun (text, width) => ('\'' :: text, width + 2)
  | c :: rest =>
    if c = '\'' then some ([], 1)
    else (quotedText? rest).map fun (text, width) => (c :: text, width + 1)

/-! ## Tokens -/

/-- A token, and how many characters it has after its first. -/
structure Lexeme where
  token : Token
  extra : Nat
  deriving DecidableEq, Repr

/-- The token that starts with a character that is not blank, given what follows it. -/
def Lexeme.scan (c : Char) (rest : List Char) : Except TokenFault Lexeme :=
  if c = '(' then .ok ⟨.opening, 0⟩
  else if c = ')' then .ok ⟨.closing, 0⟩
  else if c = '\'' then
    match quotedText? rest with
    | some (text, width) => .ok ⟨.literal (.text (String.ofList text)), width⟩
    | none => .error .unterminatedText
  else if c = '=' then
    .ok (if rest.head? = some '=' then ⟨.relation .eq, 1⟩ else ⟨.relation .eq, 0⟩)
  else if c = '!' then
    if rest.head? = some '=' then .ok ⟨.relation .ne, 1⟩ else .error .loneExclamation
  else if c = '<' then
    .ok (if rest.head? = some '=' then ⟨.relation .le, 1⟩
      else if rest.head? = some '>' then ⟨.relation .ne, 1⟩ else ⟨.relation .lt, 0⟩)
  else if c = '>' then
    .ok (if rest.head? = some '=' then ⟨.relation .ge, 1⟩ else ⟨.relation .gt, 0⟩)
  else if Text.isDigit c || c = '-' then
    let digits := rest.takeWhile Text.isDigit
    match Text.parseInt64? (c :: digits) with
    | some value => .ok ⟨.literal (.int value), digits.length⟩
    | none => .error (.invalidNumber (String.ofList (c :: digits)))
  else if isWordStart c then
    let word := rest.takeWhile isWordChar
    .ok ⟨Token.ofWord (c :: word), word.length⟩
  else .error (.unexpectedCharacter c)

/-- The number of bytes of a text. -/
def byteLength : List Char → Nat
  | [] => 0
  | c :: s => c.utf8Size + byteLength s

/-- Something at a number of bytes from the start of the filter. -/
structure Located (α : Type) where
  offset : Nat
  item : α
  deriving DecidableEq, Repr, Inhabited

/-- The tokens of a text that starts at an offset; or the first place at which none can be formed. -/
def tokensFrom (offset : Nat) (s : List Char) : Except (Located TokenFault) (List (Located Token)) :=
  match s with
  | [] => .ok []
  | c :: rest =>
    if Text.isBlank c then tokensFrom (offset + c.utf8Size) rest
    else
      match Lexeme.scan c rest with
      | .error fault => .error ⟨offset, fault⟩
      | .ok lexeme =>
        match tokensFrom (offset + c.utf8Size + byteLength (rest.take lexeme.extra))
            (rest.drop lexeme.extra) with
        | .error fault => .error fault
        | .ok tokens => .ok (⟨offset, lexeme.token⟩ :: tokens)
termination_by s.length
decreasing_by
  · simp
  · simp only [List.length_drop, List.length_cons]; omega

/-- The tokens of a filter. -/
def tokens (s : List Char) : Except (Located TokenFault) (List (Located Token)) :=
  tokensFrom 0 s

end StatusBoard.Filter

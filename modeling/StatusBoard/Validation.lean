import StatusBoard.Text.Quoted
import StatusBoard.Text.Decimal
set_option autoImplicit false

/-!
# Validation: shapes of names, and what can be wrong with a request

Condition types and kinds are in Pascal case, resource names are lower case host labels, label keys are
short paths.  The shapes are tested here, and `ValidationError` lists every fault of a request that its
sender can mend.
-/

namespace StatusBoard

/-! ## Characters -/

def isUpper (c : Char) : Bool := 'A' ≤ c && c ≤ 'Z'
def isLower (c : Char) : Bool := 'a' ≤ c && c ≤ 'z'
def isAlphanumeric (c : Char) : Bool := isUpper c || isLower c || Text.isDigit c

/-! ## Shapes -/

/-- A capital, then letters and digits. -/
def isPascalCaseChars : List Char → Bool
  | [] => false
  | c :: rest => isUpper c && rest.all isAlphanumeric

/-- A capital, then letters and digits. -/
def isPascalCase (s : String) : Bool :=
  isPascalCaseChars s.toList

/-- Both ends are of one class, all between of another, and the length is at most `limit`. -/
def isFramed (ends between : Char → Bool) (limit : Nat) : List Char → Bool
  | [] => false
  | [c] => ends c
  | c :: d :: rest =>
    ends c && ends ((d :: rest).getLast (by simp)) && (d :: rest).dropLast.all between &&
    rest.length + 2 ≤ limit

/-- A character inside a label key. -/
def isLabelChar (c : Char) : Bool :=
  isAlphanumeric c || c = '.' || c = '_' || c = '/' || c = '-'

/-- A label key: letters, digits and `.`, `_`, `/`, `-`, with a letter or digit at both ends, and at most
253 characters. -/
def isLabelKey (s : String) : Bool :=
  isFramed isAlphanumeric isLabelChar 253 s.toList

/-- A resource name: lower case letters, digits and hyphens, no hyphen at the ends, and at most 63
characters. -/
def isResourceName (s : String) : Bool :=
  isFramed (fun c => isLower c || Text.isDigit c) (fun c => isLower c || Text.isDigit c || c = '-') 63
    s.toList

/-! ## Faults -/

/-- What is wrong with a request, and can be mended by its sender only. -/
inductive ValidationError where
  | invalidConditionType (type : String)
  | invalidConditionStatus (status : String)
  | duplicateConditionType (type : String)
  | indeterminateResourceCondition (type : String)
  | unknownKind (kind : String)
  | emptyField (field : String)
  | negativeGeneration (generation : Int64)
  | invalidName (name : String)
  | invalidLabelKey (key : String)
  deriving DecidableEq, Repr, Inhabited

namespace ValidationError

/-- The text that tells the sender. -/
def message : ValidationError → String
  | invalidConditionType type =>
    "invalid condition type " ++ Text.quoted type ++ ": must match ^[A-Z][A-Za-z0-9]*$"
  | invalidConditionStatus status =>
    "invalid condition status " ++ Text.quoted status ++ ": must be one of True, False, Unknown"
  | duplicateConditionType type => "condition type " ++ Text.quoted type ++ " appears more than once"
  | indeterminateResourceCondition type =>
    "resource condition " ++ Text.quoted type ++ " must be True or False"
  | unknownKind kind => "unknown resource kind " ++ Text.quoted kind
  | emptyField field => "field " ++ field ++ " must not be empty"
  | negativeGeneration generation =>
    "observed generation must be non-negative, got " ++ String.ofList (Text.ofInt generation.toInt)
  | invalidName name => "invalid resource name " ++ Text.quoted name
  | invalidLabelKey key => "invalid label key " ++ Text.quoted key

end ValidationError
end StatusBoard

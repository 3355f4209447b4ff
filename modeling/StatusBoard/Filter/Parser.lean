import StatusBoard.Filter.Token
set_option autoImplicit false

/-!
# Filter: parsing

Tokens are read one at a time, from left to right.  Between two tokens all that matters is a `State`: what
may come next, and for each group that is still open, the whole text being one, the parts of it that are
complete.  NOT binds tighter than AND, and AND tighter than OR; a group of one part is that part.  No
comparison may stand under sixty-four or more negations and parentheses.
-/

namespace StatusBoard.Filter

/-- Why a filter cannot be read. -/
inductive ParseFault where
  | token (fault : TokenFault)
  /-- A field was expected; what was found instead, or the end. -/
  | expectedField (found : Option Token)
  | expectedRelation (field : String) (found : Option Token)
  | expectedLiteral (field : String) (found : Option Token)
  | expectedClosing (found : Option Token)
  /-- The filter could have ended here. -/
  | unexpected (found : Token)
  | nestedTooDeeply
  /-- A group that joins nothing; no text has one. -/
  | emptyGroup
  deriving DecidableEq, Repr, Inhabited

namespace ParseFault

/-- The text that tells what is wrong. -/
def message : ParseFault → String
  | token fault => fault.message
  | expectedField found => "expected field name, found " ++ describeFound found
  | expectedRelation field none => "expected operator after " ++ field
  | expectedRelation field (some found) => "expected operator after " ++ field ++ ", found " ++ found.describe
  | expectedLiteral field none => "expected value for " ++ field
  | expectedLiteral field (some found) => "expected value for " ++ field ++ ", found " ++ found.describe
  | expectedClosing found => "expected ')', found " ++ describeFound found
  | unexpected found => "unexpected " ++ found.describe
  | nestedTooDeeply => "expression nested too deeply"
  | emptyGroup => "empty AND/OR group"
where
  describeFound : Option Token → String
    | some found => found.describe
    | none => "end of input"

end ParseFault

/-- The parts of an open group that are complete, the latest first, and the negations before the part that
is being read. -/
structure Group where
  disjuncts : List Expr := []
  conjuncts : List Expr := []
  negations : Nat := 0
  deriving Repr, Inhabited

namespace Group

/-- The group with one more part, which takes the waiting negations. -/
def withPart (g : Group) (part : Expr) : Group :=
  { g with conjuncts := Expr.negate g.negations part :: g.conjuncts, negations := 0 }

/-- The group with its conjunction ended. -/
def endConjunction (g : Group) : Group :=
  { disjuncts := Expr.joinAll g.conjuncts.reverse :: g.disjuncts }

/-- The filter that a complete group is. -/
def toExpr (g : Group) : Expr :=
  Expr.joinAny g.endConjunction.disjuncts.reverse

end Group

/-- What may come next. -/
inductive Expecting where
  /-- A comparison, a negation or a group. -/
  | operand
  | relation (field : String)
  | literal (field : String) (relation : Relation)
  /-- AND, OR, or the end of the group. -/
  | joint
  deriving DecidableEq, Repr, Inhabited

/-- Where the reading of a filter stands: the innermost open group, the ones around it from the inside to
the outside, and what may come next. -/
structure State where
  group : Group := {}
  outer : List Group := []
  expecting : Expecting := .operand
  deriving Repr, Inhabited

namespace State

/-- The number of negations and parentheses around what stands inside of groups. -/
def depthInside : List Group → Nat
  | [] => 0
  | g :: outer => g.negations + 1 + depthInside outer

/-- The number of negations and parentheses around what comes next. -/
def depth (s : State) : Nat :=
  s.group.negations + depthInside s.outer

/-- The depth that no comparison may reach. -/
def depthLimit : Nat := 64

/-- Takes in the next token. -/
def step (s : State) (t : Token) : Except ParseFault State :=
  match s.expecting with
  | .operand =>
    if depthLimit ≤ s.depth then .error .nestedTooDeeply
    else match t with
      | .notWord => .ok { s with group.negations := s.group.negations + 1 }
      | .opening => .ok { s with group := {}, outer := s.group :: s.outer }
      | .field name => .ok { s with expecting := .relation name }
      | t => .error (.expectedField (some t))
  | .relation field =>
    match t with
    | .relation r => .ok { s with expecting := .literal field r }
    | t => .error (.expectedRelation field (some t))
  | .literal field relation =>
    match t with
    | .literal value =>
      .ok { s with group := s.group.withPart (.compare ⟨field, relation, value⟩), expecting := .joint }
    | t => .error (.expectedLiteral field (some t))
  | .joint =>
    match t, s.outer with
    | .andWord, _ => .ok { s with expecting := .operand }
    | .orWord, _ => .ok { s with group := s.group.endConjunction, expecting := .operand }
    | .closing, around :: outer => .ok { s with group := around.withPart s.group.toExpr, outer }
    | t, _ :: _ => .error (.expectedClosing (some t))
    | t, [] => .error (.unexpected t)

/-- The filter that has been read, if it can end here. -/
def finish (s : State) : Except ParseFault Expr :=
  match s.expecting with
  | .operand => .error (if depthLimit ≤ s.depth then .nestedTooDeeply else .expectedField none)
  | .relation field => .error (.expectedRelation field none)
  | .literal field _ => .error (.expectedLiteral field none)
  | .joint =>
    match s.outer with
    | [] => .ok s.group.toExpr
    | _ :: _ => .error (.expectedClosing none)

/-- Reads all that is left, up to the end at an offset. -/
def run (s : State) (ending : Nat) : List (Located Token) → Except (Located ParseFault) Expr
  | [] =>
    match s.finish with
    | .ok e => .ok e
    | .error fault => .error ⟨ending, fault⟩
  | t :: ts =>
    match s.step t.item with
    | .ok next => next.run ending ts
    | .error fault => .error ⟨t.offset, fault⟩

end State

/-- The filter that a text writes; `none` if the text is blank. -/
def parse (s : String) : Except (Located ParseFault) (Option Expr) :=
  match tokens s.toList with
  | .error fault => .error ⟨fault.offset, .token fault.item⟩
  | .ok [] => .ok none
  | .ok (t :: ts) =>
    match State.run {} (byteLength s.toList) (t :: ts) with
    | .ok e => .ok (some e)
    | .error fault => .error fault

end StatusBoard.Filter

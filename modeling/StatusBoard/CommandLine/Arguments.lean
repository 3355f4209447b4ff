import StatusBoard.Text.Blank
set_option autoImplicit false

/-!
# Command line: arguments

Arguments are options with their values, and the rest, which counts by position.  A value is attached, as in
`--page=2`, `-ojson` and `-o=json`, or is the next argument; the next argument is no value if it looks like
an option itself, and a lone hyphen does not.  After two hyphens everything counts by position.

Arguments are gone through once from left to right, and the first thing that is wrong, or asks for help, is
what counts.  A value that is the next argument is looked at only when something else follows it, or at the
end; an attached one is looked at where it stands.
-/

namespace StatusBoard.CommandLine

/-- An option that takes a value. -/
structure OptionSpec where
  long : String
  short : Option Char := none
  /-- The option may be given several times. -/
  repeats : Bool := false
  deriving DecidableEq, Repr, Inhabited

/-- Why the arguments ask for no command. -/
inductive Detour where
  | usage
  | help
  | version
  deriving DecidableEq, Repr, Inhabited

/-- An option that was given, by its long name. -/
structure Given where
  name : String
  value : String
  deriving DecidableEq, Repr, Inhabited

/-- What the arguments start with. -/
inductive Lead where
  | option (given : Given) (isAttached : Bool) (rest : List String)
  | position (value : String) (rest : List String)
  /-- Two hyphens. -/
  | escape (rest : List String)
  | detour (detour : Detour)
  | done
  deriving DecidableEq, Repr, Inhabited

/-- The argument looks like an option. -/
def looksLikeOption (arg : String) : Bool :=
  match arg.toList with
  | '-' :: _ :: _ => true
  | _ => false

/-- An option whose value is attached, or is the next argument. -/
def takeValue (spec : OptionSpec) (attached : Option (List Char)) (rest : List String) : Lead :=
  match attached, rest with
  | some value, rest => .option ⟨spec.long, String.ofList value⟩ true rest
  | none, value :: rest =>
    if looksLikeOption value then .detour .usage else .option ⟨spec.long, value⟩ false rest
  | none, [] => .detour .usage

/-- A word that asks for something else, unless a value is attached to it. -/
def takeDetour (detours : List (String × Detour)) (name : String) (attached : Option (List Char)) : Lead :=
  match detours.find? (·.1 = name), attached with
  | some (_, detour), none => .detour detour
  | _, _ => .detour .usage

/-- The name of a long option, and the value that is attached to it. -/
def splitAttached (body : List Char) : String × Option (List Char) :=
  match Text.splitFirst? '=' body with
  | some (name, value) => (String.ofList name, some value)
  | none => (String.ofList body, none)

/-- A long option without its hyphens. -/
def leadLong (specs : List OptionSpec) (detours : List (String × Detour)) (body : List Char)
    (rest : List String) : Lead :=
  match specs.find? (·.long = (splitAttached body).1) with
  | some spec => takeValue spec (splitAttached body).2 rest
  | none => takeDetour detours (splitAttached body).1 (splitAttached body).2

/-- The value that is attached to a short option. -/
def attachedTo : List Char → Option (List Char)
  | [] => none
  | '=' :: value => some value
  | value => some value

/-- A short option without its hyphen.  A letter that asks for something else does so whatever follows. -/
def leadShort (specs : List OptionSpec) (detours : List (String × Detour)) (c : Char) (body : List Char)
    (rest : List String) : Lead :=
  match specs.find? (·.short = some c) with
  | some spec => takeValue spec (attachedTo body) rest
  | none => takeDetour detours (String.ofList [c]) none

/-- What the arguments start with, given the options, and the words and letters that ask for something
else. -/
def lead (specs : List OptionSpec) (detours : List (String × Detour)) : List String → Lead
  | [] => .done
  | arg :: rest =>
    match arg.toList with
    | ['-', '-'] => .escape rest
    | '-' :: '-' :: body => leadLong specs detours body rest
    | ['-'] => .position arg rest
    | '-' :: c :: body => leadShort specs detours c body rest
    | _ => .position arg rest

/-- The lead takes at least as much as an argument that stood before the others. -/
def Lead.Within (args : List String) : Lead → Prop
  | .option _ _ rest => rest.length ≤ args.length
  | .position _ rest => rest.length ≤ args.length
  | .escape _ | .detour _ | .done => True

theorem takeValue_within (spec : OptionSpec) (attached : Option (List Char)) (args : List String) :
    (takeValue spec attached args).Within args := by
  unfold takeValue
  split
  · exact Nat.le_refl _
  · split
    · trivial
    · exact Nat.le_succ _
  · trivial

theorem takeDetour_within (detours : List (String × Detour)) (name : String)
    (attached : Option (List Char)) (args : List String) :
    (takeDetour detours name attached).Within args := by
  unfold takeDetour
  split <;> trivial

theorem lead_within (specs : List OptionSpec) (detours : List (String × Detour)) (arg : String)
    (args : List String) : (lead specs detours (arg :: args)).Within args := by
  unfold lead
  split
  · trivial
  · rename_i h
    cases h
    split
    · trivial
    · unfold leadLong
      split
      · exact takeValue_within ..
      · exact takeDetour_within ..
    · exact Nat.le_refl _
    · unfold leadShort
      split
      · exact takeValue_within ..
      · exact takeDetour_within ..
    · exact Nat.le_refl _

/-- An option takes at least its own argument. -/
theorem lead_option_length {specs : List OptionSpec} {detours : List (String × Detour)}
    {args rest : List String} {given : Given} {isAttached : Bool}
    (h : lead specs detours args = .option given isAttached rest) :
    rest.length < args.length := by
  cases args with
  | nil => cases h
  | cons arg args => exact Nat.lt_succ_of_le (by simpa [h, Lead.Within] using lead_within specs detours arg args)

/-- What counts by position is an argument. -/
theorem lead_position_length {specs : List OptionSpec} {detours : List (String × Detour)}
    {args rest : List String} {value : String} (h : lead specs detours args = .position value rest) :
    rest.length < args.length := by
  cases args with
  | nil => cases h
  | cons arg args => exact Nat.lt_succ_of_le (by simpa [h, Lead.Within] using lead_within specs detours arg args)

/-- Options and positions.  The last option may still wait for its value to be looked at. -/
structure Gathered where
  options : List Given := []
  positions : List String := []
  pending : Option Given := none
  deriving DecidableEq, Repr, Inhabited

/-- Which options there are, what their values may be, and how many arguments count by position. -/
structure Grammar where
  specs : List OptionSpec
  detours : List (String × Detour)
  accepts : Given → Bool
  room : Nat := 0

namespace Grammar

/-- Another option may be given besides those that were. -/
def allows (g : Grammar) (options : List Given) (given : Given) : Bool :=
  g.accepts given &&
  ((g.specs.any fun spec => spec.long = given.name && spec.repeats) || options.all (·.name ≠ given.name))

/-- The option that waits is looked at. -/
def settle (g : Grammar) (seen : Gathered) : Except Detour Gathered :=
  match seen.pending with
  | none => .ok seen
  | some given =>
    if g.allows seen.options given then
      .ok { seen with options := seen.options ++ [given], pending := none }
    else .error .usage

/-- An option is added. -/
def addOption (g : Grammar) (seen : Gathered) (given : Given) (isAttached : Bool) :
    Except Detour Gathered := do
  let seen ← g.settle seen
  let seen := { seen with pending := some given }
  if isAttached then g.settle seen else return seen

/-- Arguments that count by position are added. -/
def addPositions (g : Grammar) (seen : Gathered) (values : List String) : Except Detour Gathered := do
  let seen ← g.settle seen
  let positions := seen.positions ++ values
  if positions.length ≤ g.room then return { seen with positions } else throw .usage

/-- All arguments gathered, after those that were seen. -/
def gather (g : Grammar) (seen : Gathered) (args : List String) : Except Detour Gathered :=
  match _h : lead g.specs g.detours args with
  | .done => g.settle seen
  | .detour d => do
    let _ ← g.settle seen
    throw d
  | .escape rest => g.addPositions seen rest
  | .position value rest => do g.gather (← g.addPositions seen [value]) rest
  | .option given isAttached rest => do g.gather (← g.addOption seen given isAttached) rest
termination_by args.length
decreasing_by
  · exact lead_position_length ‹_›
  · exact lead_option_length ‹_›

/-- The options before the first argument that counts by position, that argument, and what follows it.  An
option that waits still does. -/
def gatherFirst (g : Grammar) (seen : Gathered) (args : List String) :
    Except Detour (Gathered × String × List String) :=
  match _h : lead g.specs g.detours args with
  | .done | .escape _ => .error .usage
  | .detour d => do
    let _ ← g.settle seen
    throw d
  | .position value rest => .ok (seen, value, rest)
  | .option given isAttached rest => do g.gatherFirst (← g.addOption seen given isAttached) rest
termination_by args.length
decreasing_by exact lead_option_length ‹_›

end Grammar

/-- The values of an option. -/
def valuesOf (options : List Given) (name : String) : List String :=
  (options.filter (·.name = name)).map (·.value)

end StatusBoard.CommandLine

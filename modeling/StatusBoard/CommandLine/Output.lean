import StatusBoard.CommandLine.Invocation
import StatusBoard.Service.Board
set_option autoImplicit false

/-!
# Command line: what is printed

Answers are printed as JSON over several lines, or for people: a line for each resource, and for each
status a line with one more for each of its conditions.
-/

namespace StatusBoard.CommandLine

/-- Texts with a bullet between them. -/
def bulleted (parts : List String) : String :=
  String.intercalate " • " parts

/-- The digits of a number. -/
def digits (i : Int) : String :=
  String.ofList (Text.ofInt i)

/-- A text filled up with blanks to a width. -/
def padded (width : Nat) (s : String) : String :=
  s ++ String.ofList (List.replicate (width - s.length) ' ')

/-- A list in brackets. -/
def bracketed (parts : List String) : String :=
  "[" ++ String.intercalate "," parts ++ "]"

/-- A value as JSON, on lines of its own. -/
def jsonLines (v : Json.Value) : String :=
  v.renderPretty ++ "\n"

/-- The line of a resource. -/
def resourceLine (r : Resource) : String :=
  bulleted [r.kind, r.name, r.id.toText, "gen " ++ digits r.generation.toInt,
    bracketed (r.labels.map fun (key, value) => key ++ "=" ++ value),
    bracketed (r.statusConditions.conditions.map fun c => c.type ++ "=" ++ c.status.word)] ++ "\n"

/-- The line of a condition. -/
def conditionLine (c : Condition) : String :=
  "  " ++ padded 16 c.type ++ " " ++ padded 8 c.status.word ++ " since " ++
  c.lastTransitionTime.toDisplayText ++
  (match c.reason with
    | some reason => " (" ++ reason ++ ")"
    | none => "") ++ "\n"

/-- The lines of a status. -/
def statusLines (s : AdapterStatus) : String :=
  bulleted [s.key.adapter, "gen " ++ digits s.observedGeneration.toInt,
    "last report " ++ s.lastReportTime.toDisplayText] ++ "\n" ++
  String.join (s.conditions.conditions.map conditionLine)

/-- The line under a page. -/
def pageLine {α : Type} (p : Page α) : String :=
  bulleted ["page " ++ digits p.page.toNat, digits p.items.length ++ " of " ++ digits p.total] ++ "\n"

/-- A resource as it is printed. -/
def printResource (format : OutputFormat) (r : Resource) : String :=
  match format with
  | .json => jsonLines r.write
  | .human => resourceLine r

/-- A status as it is printed. -/
def printStatus (format : OutputFormat) (s : AdapterStatus) : String :=
  match format with
  | .json => jsonLines s.write
  | .human => statusLines s

/-- What came of a report as it is printed. -/
def printOutcome (format : OutputFormat) (o : ReportOutcome) : String :=
  match format, o with
  | .json, .stored status _ => jsonLines status.write
  | .human, .stored status created => (if created then "created\n" else "updated\n") ++ statusLines status
  | .json, .discarded _ => jsonLines o.write
  | .human, .discarded reason => "discarded: " ++ reason.message ++ "\n"

/-- A page as it is printed. -/
def printPage {α : Type} (format : OutputFormat) (write : α → Json.Value) (line : α → String)
    (p : Page α) : String :=
  match format with
  | .json => jsonLines (p.write write)
  | .human => String.join (p.items.map line) ++ pageLine p

/-- An answer as it is printed. -/
def printResponse (format : OutputFormat) : Response → String
  | .resource r => printResource format r
  | .deleted => ""
  | .outcome o => printOutcome format o
  | .status s => printStatus format s
  | .statuses p => printPage format AdapterStatus.write statusLines p
  | .resources p => printPage format Resource.write resourceLine p

end StatusBoard.CommandLine

/-
Reports as they are printed.

- `text` gives a block of lines for each violation and a summary, in colours;
- `json` gives the report with the numbers of violations by severity;
- `compact` and `flake8` give one line for each violation;
- `pretty` shows each violation in its source, and the summary.
-/
import PermissionLint.Json.Writer
import PermissionLint.Report.Json
import PermissionLint.Report.Snippet

namespace PermissionLint

/-- How a report is printed. -/
inductive Format where
  | text
  | json
  | compact
  | flake8
  | pretty
  deriving DecidableEq, Repr

namespace Format

def all : List Format := [text, json, compact, flake8, pretty]

/-- The name of a format. -/
def name : Format → String
  | text => "text"
  | json => "json"
  | compact => "compact"
  | flake8 => "flake8"
  | pretty => "pretty"

/-- The format with a name. -/
def ofName? (name : String) : Option Format := all.find? fun f => f.name == name

end Format

/-! ## Colours -/

/-- The colours of a screen. -/
inductive Colour where
  | red
  | green
  | yellow
  | blue
  deriving DecidableEq, Repr

namespace Colour

/-- The number of a colour. -/
def number : Colour → String
  | red => "31"
  | green => "32"
  | yellow => "33"
  | blue => "34"

/-- A text in a colour. -/
def paint (c : Colour) (text : String) : String := "\x1b[" ++ c.number ++ "m" ++ text ++ "\x1b[0m"

end Colour

/-- The colour of a severity. -/
def Severity.colour : Severity → Colour
  | .error => .red
  | .warning => .yellow
  | .info => .blue

/-! ## Formats -/

namespace Violation

/-- The violation as a block of lines with its severity in colour, and an empty line. -/
def coloured (v : Violation) : String :=
  v.code ++ " " ++ v.rule ++ " at " ++ v.location.describe ++ "\n  "
    ++ v.severity.colour.paint v.severity.name ++ ": " ++ v.message ++ "\n"
    ++ (match v.suggestion with
      | some hint => "  = help: " ++ hint ++ "\n"
      | none => "")
    ++ "\n"

/-- The violation on one line, with its position, code and message. -/
def flake8 (v : Violation) : String :=
  v.location.describe ++ ": " ++ v.code ++ " " ++ v.message

end Violation

namespace Report

/-- The colour of a summary: that of the most serious violations, or green. -/
def summaryColour (c : Counts) : Colour :=
  if 0 < c.errors then .red else if 0 < c.warnings then .yellow else .green

/-- The summary without its colour. -/
def summary (r : Report) : String :=
  let c := r.counts
  s!"Found {c.errors} error(s), {c.warnings} warning(s), {c.infos} info(s) in "
    ++ s!"{r.filesChecked} file(s)"

/-- The line with the summary. -/
def summaryLine (r : Report) : String := (summaryColour r.counts).paint r.summary ++ "\n"

/-- The report in the format `text`. -/
def renderText (r : Report) : String :=
  String.join (r.violations.map Violation.coloured) ++ r.summaryLine

/-- The numbers of violations as JSON. -/
def countsJson (c : Counts) : Json :=
  .obj [("errors", .nat c.errors), ("warnings", .nat c.warnings), ("infos", .nat c.infos)]

/-- The report in the format `json`. -/
def renderJson (r : Report) : String :=
  (Json.obj (r.members ++ [("summary", countsJson r.counts)])).pretty ++ "\n"

/-- The report in the format `compact`. -/
def renderCompact (r : Report) : String :=
  String.join (r.violations.map fun v => v.describe ++ "\n")

/-- The report in the format `flake8`. -/
def renderFlake8 (r : Report) : String :=
  String.join (r.violations.map fun v => v.flake8 ++ "\n")

/-- The report in the format `pretty`.  A violation whose source is not known is shown without. -/
def renderPretty (r : Report) (source : String → Option (List Char)) : String :=
  String.join (r.violations.map fun v =>
    match source v.location.file with
    | some text => Snippet.render v text
    | none => v.format) ++ r.summaryLine

/-- The report in a format. -/
def render (r : Report) (source : String → Option (List Char)) : Format → String
  | .text => r.renderText
  | .json => r.renderJson
  | .compact => r.renderCompact
  | .flake8 => r.renderFlake8
  | .pretty => r.renderPretty source

end Report

end PermissionLint

/-
Checking files: finds the configuration, runs the rules and prints the report.  The status is one if
there are violations at least as serious as the configuration allows, or if something failed.
-/
import PermissionLint.Analyzer
import PermissionLint.Command.Arguments
import PermissionLint.Config.File
import PermissionLint.Permission.Registry
import PermissionLint.Text.Blank

namespace PermissionLint.Command

open PermissionLint.Text

/-- The names in a list with commas between them. -/
def listedNames (list : String) : List String :=
  (((list.toList.splitOn ',').map trim).filter (!·.isEmpty)).map String.ofList

/-- The rules that go by the names in a list. -/
def listedRules (config : Config) (list : String) : List Rule :=
  (listedNames list).filterMap fun name => Rule.find? name config

/-- The remarks on names in a list that no rule goes by. -/
def unknownRules (config : Config) (list : String) : List LogLine :=
  ((listedNames list).filter fun name => (Rule.find? name config).isNone).map fun name =>
    .warn ("Unknown rule: " ++ name)

/-- The rules to run. -/
def chosenRules (config : Config) : Option String → List Rule
  | some list => listedRules config list
  | none => Rule.ofConfig config

/-- The remarks on the choice of rules. -/
def choiceLog (config : Config) : Option String → List LogLine
  | some list => unknownRules config list
  | none => []

/-- The failure of an analysis or of its set-up. -/
def analysisFailure (title : String) (e : AnalysisError) : Failure := ⟨title, [e.message, e.cause]⟩

/-- The text of a file that a report speaks of. -/
def sourceOf (fs : FileSystem) (folder : Path) (file : String) : Option (List Char) :=
  (fs.readText (folder.join file.toList)).toOption

/-- The status of a run that gave a report. -/
def statusOf (config : Config) (r : Report) : Nat := if r.hasAtLeast config.failOn then 1 else 0

/-- Checks files by a configuration; there have been remarks before. -/
def checkWith (fs : FileSystem) (o : CheckOptions) (config : Config) (log : List LogLine) :
    Outcome :=
  let rules := chosenRules config o.rules
  let log := log ++ choiceLog config o.rules
  match Analyzer.build fs.workingDirectory (some o.path) rules o.exclude config false with
  | .error e => .failed fs log (analysisFailure "Failed to build analyzer" e)
  | .ok analyzer =>
    let start := LogLine.info
      ("Analyzing " ++ String.ofList o.path ++ s!" with {analyzer.rules.length} rule(s)")
    let run := analyzer.analyze fs
    let log := log ++ start :: run.log
    match run.result with
    | .error e => .failed fs log (analysisFailure "Analysis failed" e)
    | .ok report =>
      { status := statusOf config report
        output := report.render (sourceOf fs (projectFolder fs o.path)) o.format
        log
        files := fs }

/-- Checks files. -/
def check (s : Surroundings) (named : Option Path) (o : CheckOptions) : Outcome :=
  let source := findConfig s (projectFolder s.files o.path) named
  match source.load s.files with
  | .error failure => .failed s.files source.log failure
  | .ok config => checkWith s.files o config source.log

end PermissionLint.Command

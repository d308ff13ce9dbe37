/-
Checking all files below a folder, or one file, by some rules.

The files come in the order of their paths, whatever the order in which they were found.  A file that
is not text or not well formed is skipped, or ends the run if the analyzer is strict; one that cannot
be read ends every run.  The violations come by file, line and column; those at the same place keep
the order of the rules and, within a rule, the order in which it found them.
-/
import PermissionLint.Config
import PermissionLint.Glob.Exclude
import PermissionLint.Log
import PermissionLint.Model.OfTree
import PermissionLint.Report
import PermissionLint.Rule
import PermissionLint.Walk

namespace PermissionLint

open PermissionLint.Text PermissionLint.Syntax PermissionLint.Model

/-- Why a file cannot be checked. -/
inductive FileFault where
  /-- It is not well formed. -/
  | malformed (e : SyntaxError)
  /-- It is not text. -/
  | notText (e : Utf8.DecodeError)
  deriving DecidableEq, Repr

/-- The wording of what is wrong with a file. -/
def FileFault.message : FileFault → String
  | malformed e => e.message
  | notText e => e.message

/-- Why there is no report. -/
inductive AnalysisError where
  /-- A pattern for files to leave out is not well formed. -/
  | pattern (e : Exclude.PatternError)
  /-- The files cannot be found, or one of them cannot be read. -/
  | walk (e : WalkError)
  /-- A file cannot be checked. -/
  | file (path : Path) (fault : FileFault)
  deriving DecidableEq, Repr

namespace AnalysisError

/-- What went wrong, without saying what was tried. -/
def cause : AnalysisError → String
  | pattern e => e.message
  | walk e => e.message
  | file _ fault => fault.message

/-- The wording of a failure to analyze. -/
def message : AnalysisError → String
  | pattern e => "invalid exclude pattern: " ++ e.message
  | walk (.unreadable reason) => "IO error: " ++ reason.message
  | walk e => "failed to walk source tree: " ++ e.message
  | file path (.malformed e) => "cannot parse " ++ String.ofList path ++ ": " ++ e.message
  | file path (.notText e) =>
    "cannot decode " ++ String.ofList path ++ " as UTF-8: " ++ e.message

/-- The failure ends a run; that of a file which is not text or not well formed does so only if the
run is strict. -/
def endsRun (strict : Bool) : AnalysisError → Bool
  | file _ _ => strict
  | pattern _ | walk _ => true

end AnalysisError

/-- What to check, and how. -/
structure Analyzer where
  /-- The folder or the file to check, as a path from the top. -/
  root : Path
  rules : List Rule
  excludes : List Exclude
  config : Config
  /-- A file that cannot be checked ends the run. -/
  strict : Bool

/-- What a run gives: remarks on the way, and a report unless it failed. -/
structure Analysis where
  log : List LogLine
  result : Except AnalysisError Report

/-- What the check of one file gives. -/
structure FileCheck where
  path : Path
  log : List LogLine
  result : Except AnalysisError (List Violation)

namespace Analyzer

/-- The analyzer for a root, which is taken from the configuration if none is given, with patterns
for files to leave out in addition to the configured ones.  The working directory is given, so only a
pattern can be wrong. -/
def build (workingDirectory : Path) (root : Option Path) (rules : List Rule)
    (patterns : List String) (config : Config) (strict : Bool) : Except AnalysisError Analyzer :=
  match (patterns ++ config.analyzer.exclude).mapM Exclude.ofPattern with
  | .error e => .error (.pattern e)
  | .ok excludes =>
    let root := workingDirectory.join (root.getD config.analyzer.root.toList)
    .ok { root, rules, excludes, config, strict }

/-! ## Finding files -/

/-- The path is one of source files, by its extension. -/
def isSource (p : Path) : Bool := p.extension? == some ['p', 'y']

/-- A path is left out by one of the patterns. -/
def isExcluded (a : Analyzer) (p : Path) : Bool := a.excludes.any (·.leavesOut p)

/-- The files to check among those that were found, in the order of their paths. -/
def select (a : Analyzer) (found : List Found) : List Found :=
  (found.filter fun f => isSource f.path && !a.isExcluded f.path).mergeSort
    fun f g => Path.compare f.path g.path != .gt

/-- The remarks on files that patterns leave out. -/
def selectionLog (a : Analyzer) (found : List Found) : List LogLine :=
  (found.filter fun f => isSource f.path && a.isExcluded f.path).map fun f =>
    .debug ("Excluded " ++ String.ofList f.path)

/-! ## Checking a file -/

/-- The violation with the severity that the configuration gives to its rule. -/
def withSeverity (severity : Option Severity) (v : Violation) : Violation :=
  match severity with
  | some severity => { v with severity }
  | none => v

/-- What a rule has to say about a file, as the configuration sees it. -/
def findings (c : Config) (file : FileContext) (m : Module) (r : Rule) : Findings :=
  if c.isEnabled r.name then
    let found := r.check file m
    { found with violations := found.violations.map (withSeverity (c.severity? r.name)) }
  else { remarks := ["Rule " ++ r.name ++ " disabled by config"] }

/-- The folder that paths are reported from. -/
def base (a : Analyzer) (fs : FileSystem) : Path :=
  if fs.isFile a.root then (a.root.directory?).getD a.root else a.root

/-- The text of a source and its model. -/
def readModule (bytes : List UInt8) : Except FileFault (List Char × Module) :=
  match Utf8.decode bytes with
  | .error e => .error (.notText e)
  | .ok text =>
    match Module.parse (String.ofList text) with
    | .error e => .error (.malformed e)
    | .ok m => .ok (text, m)

/-- The text of a file that was found, and its model. -/
def readFile (f : Found) : Except AnalysisError (List Char × Module) :=
  match f.bytes with
  | .error reason => .error (.walk (.unreadable reason))
  | .ok bytes => (readModule bytes).mapError (.file f.path)

/-- The remarks on what is wrong with a file: only of one that is not well formed there are any. -/
def faultLog : AnalysisError → List LogLine
  | .file _ (.malformed e) => [.debug e.message]
  | _ => []

/-- Checks a file. -/
def checkFile (a : Analyzer) (base : Path) (f : Found) : FileCheck :=
  let start := LogLine.debug ("Checking " ++ String.ofList f.path)
  match readFile f with
  | .error e => { path := f.path, log := start :: faultLog e, result := .error e }
  | .ok (text, m) =>
    let found := a.rules.map (findings a.config (FileContext.of f.path text base) m)
    { path := f.path
      log := start :: (found.flatMap Findings.remarks).map .debug
      result := .ok (found.flatMap Findings.violations) }

/-! ## The whole run -/

/-- Violations come by file, line and column. -/
def inOrder (v w : Violation) : Bool :=
  match Path.compare v.location.file.toList w.location.file.toList with
  | .lt => true
  | .gt => false
  | .eq =>
    v.location.line < w.location.line
      || (v.location.line == w.location.line && v.location.column ≤ w.location.column)

/-- The report on files that have been checked, those that could not be left out. -/
def reportOf (checks : List FileCheck) : Report :=
  let done := checks.filterMap fun c => c.result.toOption
  { violations := done.flatten.mergeSort inOrder, filesChecked := done.length }

/-- The failure of a check, if it ends the run. -/
def failure? (a : Analyzer) (c : FileCheck) : Option AnalysisError :=
  match c.result with
  | .error e => if e.endsRun a.strict then some e else none
  | .ok _ => none

/-- The remarks of a check that does not end the run, with the one that its file is skipped. -/
def checkLog (c : FileCheck) : List LogLine :=
  c.log ++ match c.result with
    | .error e => [.warn ("Skipping " ++ String.ofList c.path ++ ": " ++ e.cause)]
    | .ok _ => []

/-- The remark on a complete run. -/
def completion (r : Report) : LogLine :=
  .info (s!"Analysis complete: {r.violations.length} violation(s) in {r.filesChecked} file(s)")

/-- What the checks of all files give. -/
def conclude (a : Analyzer) (checks : List FileCheck) : Analysis :=
  match checks.findSome? a.failure? with
  | some e =>
    let passed := checks.takeWhile fun c => (a.failure? c).isNone
    let failed := (checks.drop passed.length).take 1
    { log := passed.flatMap checkLog ++ failed.flatMap FileCheck.log, result := .error e }
  | none =>
    let report := reportOf checks
    { log := checks.flatMap checkLog ++ [completion report], result := .ok report }

/-- The root, if it is a file. -/
def rootFile? (a : Analyzer) (fs : FileSystem) : Option Found :=
  match fs.get a.root with
  | .ok (.file bytes) => some ⟨a.root, bytes⟩
  | _ => none

/-- The files that a run comes by below the root. -/
def discover (a : Analyzer) (fs : FileSystem) : Except WalkError (List Found) :=
  fs.walk a.config.analyzer.respectGitignore a.root

/-- The checks of files. -/
def checkAll (a : Analyzer) (fs : FileSystem) (files : List Found) : List FileCheck :=
  files.map (a.checkFile (a.base fs))

/-- The rest of a run once the files to check are known. -/
def analyzeFiles (a : Analyzer) (fs : FileSystem) (files : List Found) : Analysis :=
  let rest := a.conclude (a.checkAll fs files)
  { rest with log := .info (s!"Found {files.length} Python file(s)") :: rest.log }

/-- Checks everything below the root, or the root itself if it is a file. -/
def analyze (a : Analyzer) (fs : FileSystem) : Analysis :=
  let start := LogLine.info ("Starting analysis at " ++ String.ofList a.root)
  match a.rootFile? fs with
  | some f =>
    let run := a.analyzeFiles fs [f]
    { run with log := start :: run.log }
  | none =>
    match a.discover fs with
    | .error e => { log := [start], result := .error (.walk e) }
    | .ok found =>
      let run := a.analyzeFiles fs (a.select found)
      { run with log := start :: a.selectionLog found ++ run.log }

end Analyzer

end PermissionLint

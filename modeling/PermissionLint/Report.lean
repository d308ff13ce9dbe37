/-
Reports: the violations of a run and how many files were checked.
-/
import PermissionLint.Violation

namespace PermissionLint

/-- The outcome of a run. -/
structure Report where
  /-- The violations, by file, line and column. -/
  violations : List Violation := []
  /-- The number of files that were read and checked. -/
  filesChecked : Nat := 0
  deriving DecidableEq, Repr

/-- How many violations there are of each severity. -/
structure Counts where
  errors : Nat := 0
  warnings : Nat := 0
  infos : Nat := 0
  deriving DecidableEq, Repr

/-- One more violation of the given severity. -/
def Counts.add (c : Counts) : Severity → Counts
  | .error => { c with errors := c.errors + 1 }
  | .warning => { c with warnings := c.warnings + 1 }
  | .info => { c with infos := c.infos + 1 }

namespace Report

/-- Some violation is at least as serious as the threshold. -/
def hasAtLeast (r : Report) (threshold : Severity) : Bool :=
  r.violations.any fun v => v.severity.atLeast threshold

/-- Some violation is an error. -/
def hasErrors (r : Report) : Bool := r.hasAtLeast .error

/-- The violations counted by severity. -/
def counts (r : Report) : Counts := r.violations.foldl (fun c v => c.add v.severity) {}

end Report

end PermissionLint

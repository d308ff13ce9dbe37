/-
What running a command gives.
-/
import PermissionLint.FileTree
import PermissionLint.Log

namespace PermissionLint.Command

/-- Why a command failed. -/
structure Failure where
  /-- What was tried. -/
  title : String
  /-- What went wrong, each cause followed by its own cause. -/
  causes : List String := []
  deriving DecidableEq, Repr

namespace Failure

/-- The lines of a cause, of which the first begins with a mark and the others are indented by
blanks. -/
def causeLines (mark blanks cause : String) : List String :=
  match cause.splitOn "\n" with
  | [] => [mark]
  | first :: rest => (mark ++ first) :: rest.map (blanks ++ ·)

/-- The lines of a failure.  Several causes are numbered. -/
def lines (f : Failure) : List String :=
  ("Error: " ++ f.title) :: match f.causes with
    | [] => []
    | [cause] => ["", "Caused by:"] ++ causeLines "    " "    " cause
    | causes =>
      ["", "Caused by:"] ++ causes.zipIdx.flatMap fun (cause, n) =>
        causeLines s!"    {n}: " "       " cause

end Failure

/-- What running a command gives. -/
structure Outcome where
  /-- The exit status. -/
  status : Nat := 0
  /-- What is printed. -/
  output : String := ""
  log : List LogLine := []
  failure : Option Failure := none
  /-- The files after the run. -/
  files : FileSystem

namespace Outcome

/-- A run that failed. -/
def failed (files : FileSystem) (log : List LogLine) (failure : Failure) : Outcome :=
  { status := 1, log, failure := some failure, files }

/-- The lines that are printed besides the output: the remarks and the failure. -/
def errorLines (o : Outcome) (verbose : Bool) : List String :=
  (shownLog verbose o.log).map LogLine.render ++ match o.failure with
    | some f => f.lines
    | none => []

end Outcome

end PermissionLint.Command

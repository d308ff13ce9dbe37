/-
Running a command line.
-/
import PermissionLint.Command.Check
import PermissionLint.Command.Init
import PermissionLint.Command.ListRules

namespace PermissionLint.Command

/-- What is shown instead of running a command. -/
def refuse (s : Surroundings) : Refusal → Outcome
  | .help topic isLong => { output := helpText topic isLong, files := s.files }
  | .version => { output := versionText, files := s.files }
  | .usage => { status := 2, files := s.files }

/-- Runs a command. -/
def Invocation.run (s : Surroundings) (i : Invocation) : Outcome :=
  match i.action with
  | .check options => check s i.config options
  | .listRules => { output := rulesText, files := s.files }
  | .init force => init s.files force

/-- What a command line gives, and whether details are to be shown. -/
def run (s : Surroundings) (arguments : List String) : Outcome × Bool :=
  match parse arguments with
  | .error refusal => (refuse s refusal, false)
  | .ok i => (i.run s, i.verbose)

end PermissionLint.Command

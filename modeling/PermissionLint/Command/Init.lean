/-
Writing a configuration to start from.  A configuration that is there already is kept unless the
command is forced.
-/
import PermissionLint.Command.Help
import PermissionLint.Config.File

namespace PermissionLint.Command

/-- The configuration to start from.  It says what holds without a configuration. -/
def defaultConfig : String := unlines [
  "# drf-lint configuration",
  "",
  "# Lowest severity that makes `drf-lint check` exit with status 1",
  "fail_on = \"error\"",
  "",
  "[analyzer]",
  "# Directory to analyze when no path is given on the command line",
  "# root = \".\"",
  "",
  "# Glob patterns to exclude from analysis",
  "exclude = [",
  "    \"**/.venv/**\",",
  "    \"**/venv/**\",",
  "    \"**/node_modules/**\",",
  "    \"**/migrations/**\",",
  "]",
  "",
  "# Respect .gitignore files",
  "respect_gitignore = true",
  "",
  "[rules.require-is-authenticated]",
  "enabled = true",
  "# severity = \"warning\"",
  "# Skip test modules (tests/, test_*.py, conftest.py)",
  "allow_in_tests = false"]

/-- What is printed once the configuration is written. -/
def initText : String := unlines [
  "Created drf-lint.toml",
  "",
  "Next steps:",
  "  1. Edit drf-lint.toml to configure rules",
  "  2. Run: drf-lint check"]

/-- Writes a configuration into the working directory. -/
def init (fs : FileSystem) (force : Bool) : Outcome :=
  if fs.contains projectConfigName && !force then
    .failed fs [] ⟨"Configuration file already exists at drf-lint.toml. Use --force to overwrite.", []⟩
  else
    match fs.writeText fs.workingDirectory projectConfigName defaultConfig.toList with
    | .ok files => { output := initText, files }
    | .error e => .failed fs [] ⟨e.message, []⟩

end PermissionLint.Command

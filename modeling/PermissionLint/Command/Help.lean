/-
The texts that are shown instead of running a command.
-/
import PermissionLint.Command.Arguments

namespace PermissionLint.Command

/-- The name of the program. -/
def programName : String := "drf-lint"

/-- The version of the program. -/
def programVersion : String := "0.1.0"

/-- Lines, each with a line feed. -/
def unlines (lines : List String) : String := String.join (lines.map (· ++ "\n"))

/-- The help on all commands. -/
def generalHelp : String := unlines [
  "Linter for Django REST framework permission declarations",
  "",
  "Usage: drf-lint [OPTIONS] <COMMAND>",
  "",
  "Commands:",
  "  check       Run lint checks",
  "  list-rules  List available rules",
  "  init        Initialize configuration file",
  "  help        Print this message or the help of the given subcommand(s)",
  "",
  "Options:",
  "  -v, --verbose          Enable verbose output",
  "  -c, --config <CONFIG>  Path to configuration file",
  "  -h, --help             Print help",
  "  -V, --version          Print version"]

/-- The help on checking, in short. -/
def checkSummary : String := unlines [
  "Run lint checks",
  "",
  "Usage: drf-lint check [OPTIONS] [PATH]",
  "",
  "Arguments:",
  "  [PATH]  File or directory to analyze (default: current directory) [default: .]",
  "",
  "Options:",
  "  -f, --format <FORMAT>    Output format [default: text] [possible values: text, json, "
    ++ "compact, flake8, pretty]",
  "  -v, --verbose            Enable verbose output",
  "  -c, --config <CONFIG>    Path to configuration file",
  "      --rules <RULES>      Only run specific rules, by name or code (comma-separated)",
  "  -e, --exclude <EXCLUDE>  Exclude patterns (can be specified multiple times)",
  "  -h, --help               Print help (see more with '--help')"]

/-- The help on checking, at length. -/
def checkHelp : String := unlines [
  "Run lint checks",
  "",
  "Usage: drf-lint check [OPTIONS] [PATH]",
  "",
  "Arguments:",
  "  [PATH]",
  "          File or directory to analyze (default: current directory)",
  "          ",
  "          [default: .]",
  "",
  "Options:",
  "  -f, --format <FORMAT>",
  "          Output format",
  "",
  "          Possible values:",
  "          - text:    Human-readable text output",
  "          - json:    JSON output",
  "          - compact: One-line-per-violation compact format",
  "          - flake8:  `path:line:col: CODE message`, as printed by flake8",
  "          - pretty:  Annotated source snippets",
  "          ",
  "          [default: text]",
  "",
  "  -v, --verbose",
  "          Enable verbose output",
  "",
  "  -c, --config <CONFIG>",
  "          Path to configuration file",
  "",
  "      --rules <RULES>",
  "          Only run specific rules, by name or code (comma-separated)",
  "",
  "  -e, --exclude <EXCLUDE>",
  "          Exclude patterns (can be specified multiple times)",
  "",
  "  -h, --help",
  "          Print help (see a summary with '-h')"]

/-- The help on listing the rules. -/
def listRulesHelp : String := unlines [
  "List available rules",
  "",
  "Usage: drf-lint list-rules [OPTIONS]",
  "",
  "Options:",
  "  -v, --verbose          Enable verbose output",
  "  -c, --config <CONFIG>  Path to configuration file",
  "  -h, --help             Print help"]

/-- The help on writing a configuration. -/
def initHelp : String := unlines [
  "Initialize configuration file",
  "",
  "Usage: drf-lint init [OPTIONS]",
  "",
  "Options:",
  "      --force            Overwrite existing config",
  "  -v, --verbose          Enable verbose output",
  "  -c, --config <CONFIG>  Path to configuration file",
  "  -h, --help             Print help"]

/-- The help on help. -/
def helpHelp : String := unlines [
  "Print this message or the help of the given subcommand(s)",
  "",
  "Usage: drf-lint help [COMMAND]...",
  "",
  "Arguments:",
  "  [COMMAND]...  Print help for the subcommand(s)"]

/-- The help on a command, or on all of them. -/
def helpText (topic : Option Topic) (isLong : Bool) : String :=
  match topic with
  | none => generalHelp
  | some .check => if isLong then checkHelp else checkSummary
  | some .listRules => listRulesHelp
  | some .init => initHelp
  | some .help => helpHelp

/-- The line with the version. -/
def versionText : String := programName ++ " " ++ programVersion ++ "\n"

end PermissionLint.Command

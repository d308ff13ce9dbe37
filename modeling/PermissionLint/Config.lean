/-
The configuration: which severity fails a run, what is checked, and how the rules are set up.

Every section and every key is optional.  A key that is not known is ignored, except in the section
of a rule, where it is an option for the rule itself.
-/
import PermissionLint.Severity
import PermissionLint.Toml.Document

namespace PermissionLint

open PermissionLint.Toml

/-- The section of a rule. -/
structure RuleSection where
  /-- Turns the rule on or off. -/
  enabled : Option Bool := none
  /-- Replaces the severity of the rule's violations. -/
  severity : Option Severity := none
  /-- All other keys of the section. -/
  options : List (String × Value) := []

/-- A boolean option; the default if it is absent or no boolean. -/
def RuleSection.flag (s : RuleSection) (key : String) (default : Bool) : Bool :=
  match lookup? key s.options with
  | some (.boolean b) => b
  | _ => default

/-- What is checked. -/
structure AnalyzerSection where
  /-- The directory to check if no other one is asked for. -/
  root : String := "."
  /-- The glob patterns of files to leave out. -/
  exclude : List String := ["**/.venv/**", "**/venv/**", "**/node_modules/**", "**/migrations/**"]
  /-- Files that `.gitignore` ignores are left out. -/
  respectGitignore : Bool := true
  deriving DecidableEq, Repr

/-- A configuration. -/
structure Config where
  /-- The least severity that fails a run. -/
  failOn : Severity := .error
  analyzer : AnalyzerSection := {}
  /-- The sections of rules, by the names of the rules. -/
  rules : List (String × RuleSection) := []

/-- Why there is no configuration. -/
inductive ConfigError where
  /-- The file cannot be read. -/
  | unreadable (path reason : String)
  /-- The file holds no configuration. -/
  | invalid
  deriving DecidableEq, Repr

/-- The wording of a failure to load a configuration. -/
def ConfigError.message : ConfigError → String
  | unreadable path reason => "cannot read config file " ++ path ++ ": " ++ reason
  | invalid => "invalid config"

namespace Config

/-- The section of a rule. -/
def rule? (c : Config) (name : String) : Option RuleSection :=
  (c.rules.find? fun r => r.1 == name).map Prod.snd

/-- A rule is on unless its section turns it off. -/
def isEnabled (c : Config) (name : String) : Bool :=
  ((c.rule? name).bind RuleSection.enabled).getD true

/-- The severity that the configuration gives to a rule. -/
def severity? (c : Config) (name : String) : Option Severity :=
  (c.rule? name).bind RuleSection.severity

/-! ## Decoding -/

/-- The value is an empty table or an empty array. -/
def isEmptyValue : Value → Bool
  | .table [] | .array [] => true
  | _ => false

/-- A severity: its name, or a table with nothing but an empty entry of that name. -/
def severityOf? : Value → Option Severity
  | .string name => Severity.ofName? name
  | .table [(name, v)] => if isEmptyValue v then Severity.ofName? name else none
  | _ => none

def stringOf? : Value → Option String
  | .string s => some s
  | _ => none

def booleanOf? : Value → Option Bool
  | .boolean b => some b
  | _ => none

def stringsOf? : Value → Option (List String)
  | .array items => items.mapM stringOf?
  | _ => none

/-- The value under a key, decoded, or the default if the key is absent. -/
def field {α : Type} (decode : Value → Option α) (default : α) : Option Value → Option α
  | some v => decode v
  | none => some default

/-- The section of a rule: the keys that are not known are its options. -/
def ruleOf? : Value → Option RuleSection
  | .table entries => do
    let enabled ← field (fun v => (booleanOf? v).map some) none (lookup? "enabled" entries)
    let severity ← field (fun v => (severityOf? v).map some) none (lookup? "severity" entries)
    let options := entries.filter fun e => e.1 != "enabled" && e.1 != "severity"
    return ⟨enabled, severity, options⟩
  | _ => none

def rulesOf? : Value → Option (List (String × RuleSection))
  | .table entries => entries.mapM fun (name, v) => (ruleOf? v).map fun r => (name, r)
  | _ => none

/-- What is checked: a table, or an array of the values of its keys in order. -/
def analyzerOf? (v : Value) : Option AnalyzerSection :=
  let decode (root exclude respect : Option Value) : Option AnalyzerSection := do
    let default : AnalyzerSection := {}
    return ⟨← field stringOf? default.root root, ← field stringsOf? default.exclude exclude,
      ← field booleanOf? default.respectGitignore respect⟩
  match v with
  | .table entries =>
    decode (lookup? "root" entries) (lookup? "exclude" entries)
      (lookup? "respect_gitignore" entries)
  | .array items => decode items[0]? items[1]? items[2]?
  | _ => none

/-- The configuration that a document is. -/
def ofDocument? (entries : List (String × Value)) : Option Config := do
  return ⟨← field severityOf? .error (lookup? "fail_on" entries),
    ← field analyzerOf? {} (lookup? "analyzer" entries),
    ← field rulesOf? [] (lookup? "rules" entries)⟩

/-- The configuration that a text spells. -/
def parse (text : String) : Except ConfigError Config :=
  match (Toml.parse? text).bind ofDocument? with
  | some c => .ok c
  | none => .error .invalid

end Config

end PermissionLint

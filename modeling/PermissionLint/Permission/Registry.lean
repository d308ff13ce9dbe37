/-
The rules there are, set up by a configuration, and how to find one.
-/
import PermissionLint.Config
import PermissionLint.Permission.Rule

namespace PermissionLint

namespace Permission

/-- The set-up that a configuration asks for.  The severity is applied by whoever runs the rule. -/
def Options.ofConfig (c : Config) : Options :=
  match c.rule? name with
  | some section_ => { allowInTests := section_.flag "allow_in_tests" false }
  | none => {}

end Permission

namespace Rule

/-- Every rule, as it is set up without a configuration. -/
def all : List Rule := [Permission.rule {}]

/-- Every rule, as a configuration sets it up. -/
def ofConfig (c : Config) : List Rule := [Permission.rule (.ofConfig c)]

/-- The rule has the name, or the code in upper or lower case. -/
def answersTo (name : String) (r : Rule) : Bool :=
  r.name == name || Severity.lowerCase r.code == Severity.lowerCase name

/-- The rule that goes by a name or a code. -/
def find? (name : String) (c : Config) : Option Rule := (ofConfig c).find? (answersTo name)

end Rule

end PermissionLint

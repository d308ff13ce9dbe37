/-
Which ignore files there are and how far they reach.

Each folder may hold three of them, and each is about everything below its folder.  Of two files with
the same name the deeper one decides; between names, the one that comes first does.

A file for all folders of a user, which `git` looks for in the user's configuration, would come after
these.  It is taken to be empty or not there.
-/
import PermissionLint.FileTree
import PermissionLint.Ignore.Rules

namespace PermissionLint.Ignore

/-- The ignore files of a folder, those that decide first in front. -/
inductive Source where
  | ignore
  | gitignore
  | exclude
  deriving DecidableEq, Repr

namespace Source

/-- The names that lead from a folder to its ignore file. -/
def names : Source → List Name
  | ignore => [".ignore".toList]
  | gitignore => [".gitignore".toList]
  | exclude => [".git".toList, "info".toList, "exclude".toList]

/-- The ignore files that are read. -/
def used (respectGitignore : Bool) : List Source :=
  if respectGitignore then [ignore, gitignore, exclude] else [ignore, exclude]

/-- The bytes of an ignore file of a folder; none if there is no such file, or if it cannot be
read. -/
def bytes (s : Source) (folder : FileTree) : List UInt8 :=
  match folder.at? s.names with
  | some (.file (.ok bytes)) => bytes
  | _ => []

end Source

/-- The ignore files of a folder, as seen from a folder that is the same or below. -/
structure Scope where
  /-- The names that lead from the one folder to the other. -/
  below : List Name
  ignoreRules : List IgnoreRule
  gitignoreRules : List IgnoreRule
  excludeRules : List IgnoreRule

namespace Scope

/-- The ignore files of a folder, as seen from itself. -/
def ofFolder (folder : FileTree) : Scope where
  below := []
  ignoreRules := rulesOf (Source.ignore.bytes folder)
  gitignoreRules := rulesOf (Source.gitignore.bytes folder)
  excludeRules := rulesOf (Source.exclude.bytes folder)

/-- The rules of one of the files. -/
def rules (s : Scope) : Source → List IgnoreRule
  | .ignore => s.ignoreRules
  | .gitignore => s.gitignoreRules
  | .exclude => s.excludeRules

/-- The ignore files, as seen from a folder further down. -/
def descend (name : Name) (s : Scope) : Scope := { s with below := s.below ++ [name] }

/-- What the rules of a file decide about an entry of the folder at hand. -/
def verdict? (s : Scope) (source : Source) (name : Name) (isFolder : Bool) : Option Bool :=
  Ignore.verdict? (s.rules source) (List.intercalate ['/'] (s.below ++ [name])) isFolder

end Scope

/-- An entry of a folder is left out by the ignore files in reach, the innermost first. -/
def isIgnored (sources : List Source) (scopes : List Scope) (name : Name) (isFolder : Bool) : Bool :=
  (sources.findSome? fun source => scopes.findSome? (·.verdict? source name isFolder)) == some false

/-! ## The folders above -/

/-- The scopes that reach the end of a chain of names from the folders before it, the innermost
first. -/
def scopesAbove (folder : FileTree) (scopes : List Scope) : List Name → List Scope
  | [] => scopes
  | name :: names =>
    match folder.child? name with
    | some child => scopesAbove child ((Scope.ofFolder folder :: scopes).map (·.descend name)) names
    | none => scopes

/-- A line of an ignore file that is no pattern, with the path of the file. -/
structure FileError where
  path : Path
  error : LineError
  deriving DecidableEq, Repr

/-- The wording of an error in an ignore file. -/
def FileError.message (e : FileError) : String :=
  String.ofList e.path ++ ": " ++ e.error.message

/-- The path of a chain of names from the top. -/
def pathOf (names : List Name) : Path := names.flatMap ('/' :: ·)

/-- The errors in the ignore files of the folders on the way to the end of a chain of names; `here`
leads to the folder at hand. -/
def errorsAbove (sources : List Source) (folder : FileTree) (here : List Name) :
    List Name → List FileError
  | [] => []
  | name :: names =>
    let own := sources.flatMap fun s =>
      (errorsOf (s.bytes folder)).map fun e => ⟨pathOf (here ++ s.names), e⟩
    own ++ match folder.child? name with
      | some child => errorsAbove sources child (here ++ [name]) names
      | none => []

end PermissionLint.Ignore

/-
Walking through a folder: the files below it that no ignore file leaves out.

A folder that is left out is not entered, so nothing below it can be kept.  The folder that the walk
starts from is never left out.
-/
import PermissionLint.Ignore.Scope

namespace PermissionLint

open PermissionLint.Ignore

/-- Why files are not at hand: there is no walk, or what it found is of no use. -/
inductive WalkError where
  /-- There is no folder to start from. -/
  | access (path : Path) (reason : AccessError)
  /-- Lines of ignore files above the folder are no patterns. -/
  | ignoreFiles (errors : List FileError)
  /-- A file that was found cannot be read. -/
  | unreadable (reason : AccessError)
  deriving DecidableEq, Repr

/-- The wording of a failure to have files at hand. -/
def WalkError.message : WalkError → String
  | access path reason =>
    let path := String.ofList path
    path ++ ": IO error for operation on " ++ path ++ ": " ++ reason.message
  | ignoreFiles errors => "\n".intercalate (errors.map FileError.message)
  | unreadable reason => reason.message

/-- A file that a walk came by. -/
structure Found where
  path : Path
  bytes : Contents
  deriving Repr

/-- Whether a tree is a folder. -/
def FileTree.isFolder : FileTree → Bool
  | folder _ => true
  | file _ => false

mutual

/-- The files of a tree at a path; the scopes reach the entries of the folder, the tree's own files
excepted. -/
def walkTree (sources : List Source) (scopes : List Scope) (path : Path) : FileTree → List Found
  | .file bytes => [⟨path, bytes⟩]
  | .folder entries =>
    walkEntries sources (Scope.ofFolder (.folder entries) :: scopes) path entries

/-- The files of the entries of a folder, those that are ignored left out. -/
def walkEntries (sources : List Source) (scopes : List Scope) (path : Path) :
    List (Name × FileTree) → List Found
  | [] => []
  | (name, tree) :: entries =>
    (if isIgnored sources scopes name tree.isFolder then []
      else walkTree sources (scopes.map (·.descend name)) (path.join name) tree)
      ++ walkEntries sources scopes path entries

end

/-- The files below a path.  The ignore files of the folders above and below count; one that is kept
for a user is taken to be empty. -/
def FileSystem.walk (fs : FileSystem) (respectGitignore : Bool) (root : Path) :
    Except WalkError (List Found) :=
  let sources := Source.used respectGitignore
  match fs.resolve root with
  | .error e => .error (.access root e)
  | .ok names =>
    match fs.top.at? names with
    | none => .error (.access root .notFound)
    | some tree =>
      match errorsAbove sources fs.top [] names with
      | [] => .ok (walkTree sources (scopesAbove fs.top [] names) root tree)
      | errors => .error (.ignoreFiles errors)

end PermissionLint

/-
Which files a command looks at, and which files it leaves changed.

A program that runs commands on real files reads the former beforehand and writes the latter
afterwards; everything between is a function of the files.
-/
import PermissionLint.Command.Run

namespace PermissionLint

/-- The names that lead from the top to the end of an absolute path, whether or not it exists. -/
def Path.names (p : Path) : List Name :=
  p.parts.foldl
    (fun here part =>
      if isVoid part then here else if part == ['.', '.'] then here.dropLast else here ++ [part])
    []

namespace FileTree

/-- The tree with a folder at the end of a chain of names, if there is nothing yet. -/
def ensure (tree : FileTree) (names : List Name) : FileTree :=
  if (tree.at? names).isSome then tree else tree.put nothing names

mutual

/-- The files of a tree at the end of a chain of names. -/
def filesFrom (here : List Name) : FileTree → List (List Name × Contents)
  | .file bytes => [(here, bytes)]
  | .folder entries => entryFilesFrom here entries

/-- The files of the entries of a folder. -/
def entryFilesFrom (here : List Name) :
    List (Name × FileTree) → List (List Name × Contents)
  | [] => []
  | (name, tree) :: entries => filesFrom (here ++ [name]) tree ++ entryFilesFrom here entries

end

/-- A tree holds a file with the given bytes at the end of a chain of names. -/
def holds (tree : FileTree) (names : List Name) (bytes : List UInt8) : Bool :=
  match tree.at? names with
  | some (.file (.ok old)) => old == bytes
  | _ => false

/-- The files of the second tree that can be read and that the first one does not hold. -/
def changes (old new : FileTree) : List (List Name × List UInt8) :=
  (new.filesFrom []).filterMap fun (names, bytes) =>
    bytes.toOption.bind fun bytes =>
      if old.holds names bytes then none else some (names, bytes)

end FileTree

namespace Command

/-- The ignore files of the folders on the way to the end of a chain of names. -/
def ignoreFilesAbove (names : List Name) : List (List Name) :=
  (List.range (names.length + 1)).flatMap fun depth =>
    (Ignore.Source.used true).map fun s => names.take depth ++ s.names

/-- The paths of the configurations that a command tries. -/
def configPaths (folder : Path) (named globalFolder : Option Path) : List Path :=
  named.toList ++ projectConfigNames.map folder.join
    ++ (globalFolder.map fun g => g.join globalConfigName).toList

/-- Where a command looks, as names from the top.  A folder is looked at with all that it holds. -/
def Invocation.reads (i : Invocation) (workingDirectory : Path) (globalFolder : Option Path) :
    List (List Name) :=
  let place (p : Path) : List Name := Path.names (workingDirectory.join p)
  match i.action with
  | .check options =>
    let folders := options.path :: options.path.directory?.toList
    place options.path :: ignoreFilesAbove (place options.path)
      ++ (folders.flatMap fun f => configPaths f i.config globalFolder).map place
  | .listRules => []
  | .init _ => [place projectConfigName]

/-- Where the command of a command line looks. -/
def reads (arguments : List String) (workingDirectory : Path) (globalFolder : Option Path) :
    List (List Name) :=
  match parse arguments with
  | .error _ => []
  | .ok i => i.reads workingDirectory globalFolder

end Command

end PermissionLint

/-
The program: reads the files that a command looks at, runs the command on them, writes the files
that it changed and prints what it gives.
-/
import PermissionLint.Command.Reads

namespace PermissionLint.Main

/-- The reason that the system gives for a failure. -/
def reasonOf : IO.Error → String
  | .permissionDenied _ code details => s!"{details} (os error {code})"
  | e => toString e

/-- The bytes of a file, or why they cannot be read. -/
def readContents (entry : IO.FS.DirEntry) : IO Contents := do
  try
    return .ok (← IO.FS.readBinFile entry.path).toList
  catch e =>
    return .error (.unreadable (reasonOf e))

/-- A walk comes by an entry of a folder: by a folder, and by a file, also behind a link.  It does not
follow a link to a folder. -/
def isMet (entry : IO.FS.DirEntry) : IO Bool := do
  match (← entry.path.symlinkMetadata).type with
  | .dir | .file => return true
  | .symlink =>
    if ← entry.path.pathExists then return (← entry.path.metadata).type == .file
    else return false
  | .other => return false

/-- Reads a file, or a folder with all that a walk comes by in it. -/
partial def readTree (entry : IO.FS.DirEntry) : IO FileTree := do
  if ← entry.path.isDir then
    let mut entries := #[]
    for e in ← entry.path.readDir do
      if ← isMet e then
        entries := entries.push (e.fileName.toList, ← readTree e)
    return .folder entries.toList
  else return .file (← readContents entry)

/-- The entry at the end of a chain of names from the top. -/
def entryAt (names : List Name) : IO IO.FS.DirEntry := do
  return { root := ← IO.currentDir, fileName := '/' :: List.intercalate ['/'] names |> String.ofList }

/-- Reads what is at the end of a chain of names into a tree. -/
def readAt (tree : FileTree) (names : List Name) : IO FileTree := do
  return tree.put (← readTree (← entryAt names)) names

/-- Reads what is at the end of a chain of names into a tree, together with the folders on the way.
A file on the way ends it. -/
def readInto (tree : FileTree) : (here names : List Name) → IO FileTree
  | here, [] => readAt tree here
  | here, name :: names => do
    let there := here ++ [name]
    let entry ← entryAt there
    if ← entry.path.isDir then
      readInto (if names.isEmpty then tree else tree.ensure there) there names
    else if ← entry.path.pathExists then readAt tree there
    else return tree

/-- Runs a command line on the files of this machine. -/
def run (arguments : List String) : IO UInt32 := do
  let workingDirectory : Path := (← IO.currentDir).toString.toList
  let globalFolder :=
    Command.globalFolderOf (← IO.getEnv "DRF_LINT_CONFIG_DIR") (← IO.getEnv "HOME")
  let mut top := FileTree.nothing
  for names in Command.reads arguments workingDirectory globalFolder do
    top ← readInto top [] names
  let (outcome, verbose) :=
    Command.run { files := { top, workingDirectory }, globalFolder } arguments
  for (names, bytes) in top.changes outcome.files.top do
    IO.FS.writeBinFile (← entryAt names).path ⟨bytes.toArray⟩
  IO.print outcome.output
  for line in outcome.errorLines verbose do
    IO.eprintln line
  return outcome.status.toUInt32

end PermissionLint.Main

/-- Runs the command line. -/
def main (arguments : List String) : IO UInt32 := PermissionLint.Main.run arguments

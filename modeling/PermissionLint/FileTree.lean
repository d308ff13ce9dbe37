/-
Files and folders as values, and how paths lead to them.  A file is there whether or not its bytes
can be read.

A path is followed part by part.  Every part, also one that is empty or a single dot, needs a folder
to start from, and two dots lead from a folder to the one that holds it.
-/
import PermissionLint.Path
import PermissionLint.Text.Utf8

namespace PermissionLint

open PermissionLint.Text

/-- The name of a file or of a folder inside another one. -/
abbrev Name := List Char

/-- Why a file cannot be used. -/
inductive AccessError where
  /-- There is nothing at the path. -/
  | notFound
  /-- The path goes on below a file. -/
  | notFolder
  /-- The path leads to a folder, and a file is asked for. -/
  | isFolder
  /-- The file does not hold text. -/
  | notText
  /-- The system does not let the file be read. -/
  | unreadable (reason : String)
  deriving DecidableEq, Repr

/-- The wording of a failure to use a file. -/
def AccessError.message : AccessError → String
  | notFound => "No such file or directory (os error 2)"
  | notFolder => "Not a directory (os error 20)"
  | isFolder => "Is a directory (os error 21)"
  | notText => "stream did not contain valid UTF-8"
  | unreadable reason => reason

/-- The bytes of a file, or why they cannot be read. -/
abbrev Contents := Except AccessError (List UInt8)

instance : Coe (List UInt8) Contents := ⟨.ok⟩

/-- A file, or a folder with what it holds. -/
inductive FileTree where
  | file (bytes : Contents)
  | folder (entries : List (Name × FileTree))
  deriving Repr

namespace FileTree

/-- A folder that holds nothing. -/
def nothing : FileTree := folder []

/-- What a folder holds under a name. -/
def child? : FileTree → Name → Option FileTree
  | folder entries, name => (entries.find? fun e => e.1 == name).map Prod.snd
  | file _, _ => none

/-- What stands at the end of a chain of names. -/
def at? (tree : FileTree) : List Name → Option FileTree
  | [] => some tree
  | name :: names => (tree.child? name).bind fun child => child.at? names

/-- The names that lead from the top to where parts of a path lead from a folder. -/
def follow (top : FileTree) : List (List Char) → (here : List Name) → Except AccessError (List Name)
  | [], here => .ok here
  | part :: parts, here =>
    match top.at? here with
    | some (.folder entries) =>
      if Path.isVoid part then top.follow parts here
      else if part == ['.', '.'] then top.follow parts here.dropLast
      else if entries.any (·.1 == part) then top.follow parts (here ++ [part])
      else .error .notFound
    | some (.file _) => .error .notFolder
    | none => .error .notFound

/-- The entries of a folder with another one under a name, in the place of that name or at the
end. -/
def putEntry (name : Name) (tree : FileTree) : List (Name × FileTree) → List (Name × FileTree)
  | [] => [(name, tree)]
  | e :: es => if e.1 == name then (name, tree) :: es else e :: putEntry name tree es

/-- The tree with another one at the end of a chain of names; folders on the way are made as
needed. -/
def put (tree : FileTree) (new : FileTree) : List Name → FileTree
  | [] => new
  | name :: names =>
    let entries := match tree with
      | folder entries => entries
      | file _ => []
    folder (putEntry name (((tree.child? name).getD nothing).put new names) entries)

end FileTree

/-- All files there are, and the folder that relative paths start from.  That folder is always known,
and every folder can be listed; a file may be one that cannot be read. -/
structure FileSystem where
  top : FileTree := .nothing
  /-- The path of that folder, from the top. -/
  workingDirectory : Path := ['/']

namespace FileSystem

/-- The path from the top that a path stands for, as it is written. -/
def absolute (fs : FileSystem) (p : Path) : Path := fs.workingDirectory.join p

/-- The names that lead from the top to the end of a path. -/
def resolve (fs : FileSystem) (p : Path) : Except AccessError (List Name) :=
  if p.isEmpty then .error .notFound else fs.top.follow (Path.parts (fs.absolute p)) []

/-- What is at a path. -/
def get (fs : FileSystem) (p : Path) : Except AccessError FileTree :=
  match fs.resolve p with
  | .ok names =>
    match fs.top.at? names with
    | some tree => .ok tree
    | none => .error .notFound
  | .error e => .error e

/-- There is something at the path. -/
def contains (fs : FileSystem) (p : Path) : Bool :=
  match fs.get p with
  | .ok _ => true
  | .error _ => false

/-- There is a file at the path. -/
def isFile (fs : FileSystem) (p : Path) : Bool :=
  match fs.get p with
  | .ok (.file _) => true
  | _ => false

/-- The bytes of the file at a path. -/
def read (fs : FileSystem) (p : Path) : Contents :=
  match fs.get p with
  | .ok (.file bytes) => bytes
  | .ok (.folder _) => .error .isFolder
  | .error e => .error e

/-- The text of the file at a path. -/
def readText (fs : FileSystem) (p : Path) : Except AccessError (List Char) :=
  match fs.read p with
  | .ok bytes =>
    match Utf8.decode bytes with
    | .ok text => .ok text
    | .error _ => .error .notText
  | .error e => .error e

/-- The files after a file of a folder has been written. -/
def writeText (fs : FileSystem) (folder : Path) (name : Name) (text : List Char) :
    Except AccessError FileSystem :=
  match fs.resolve folder with
  | .error e => .error e
  | .ok names =>
    match fs.top.at? (names ++ [name]) with
    | some (.folder _) => .error .isFolder
    | _ => .ok { fs with top := fs.top.put (.file (Utf8.encode text)) (names ++ [name]) }

end FileSystem

end PermissionLint

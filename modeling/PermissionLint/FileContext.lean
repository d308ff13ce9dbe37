/-
What a rule knows about the file that it looks at: the path, the text, and whether it is test code.
-/
import PermissionLint.Path

namespace PermissionLint

/-- The offset of a byte column in the first line of a text, or of the end of that line. -/
def columnOffset : (column : Nat) → List Char → Nat
  | _, [] => 0
  | column, c :: cs =>
    if column ≤ c.utf8Size || c == '\n' then min column c.utf8Size
    else c.utf8Size + columnOffset (column - c.utf8Size) cs

/-- The offset of a byte column in the line after `skip` others.  A column past the end of its line
stands for that end, and a line past the end of the text for that end. -/
def lineOffset : (skip column : Nat) → List Char → Nat
  | 0, column, cs => columnOffset column cs
  | _ + 1, _, [] => 0
  | skip + 1, column, c :: cs =>
    c.utf8Size + lineOffset (if c == '\n' then skip else skip + 1) column cs

/-- The offset of a line, numbered from one, and a byte column, numbered from zero. -/
def offsetFor (text : List Char) (line column : Nat) : Nat :=
  match line with
  | 0 => 0
  | skip + 1 => lineOffset skip column text

/-- Directories that hold test code. -/
def testDirectories : List String := ["tests", "test"]

/-- Files that are test code wherever they are. -/
def testFiles : List String := ["tests.py", "conftest.py"]

/-- The path is one of test code, by the names of its directories or by its own. -/
def isTestPath (p : Path) : Bool :=
  (p.components.any fun
    | .normal name => String.ofList name ∈ testDirectories
    | _ => false)
  || (p.fileName?).any fun name =>
    String.ofList name ∈ testFiles || "test_".toList.isPrefixOf name
      || "_test.py".toList.isSuffixOf name || "_tests.py".toList.isSuffixOf name

/-- The file that a rule looks at. -/
structure FileContext where
  /-- The path, as the file was found. -/
  path : Path
  /-- The text of the file. -/
  text : List Char
  /-- The file is test code. -/
  isTest : Bool
  /-- The path below the directory that is checked, for reports. -/
  relativePath : Path

/-- The context of a file below a directory.  A file outside of it is reported as it is written. -/
def FileContext.of (path : Path) (text : List Char) (root : Path) : FileContext where
  path
  text
  isTest := isTestPath path
  relativePath := (path.stripPrefix? root).getD path

end PermissionLint

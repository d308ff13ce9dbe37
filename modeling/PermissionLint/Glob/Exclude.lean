/-
Patterns for files to leave out, matched against whole paths.

A question mark stands for one character and an asterisk for any number of them, separators
included.  Two asterisks stand for any number of folders, and for everything at the end of a
pattern; they have to be a whole part of the path.  Brackets hold a set of characters, or after an
exclamation mark of characters that are not meant; a closing bracket that comes first belongs to the
set.

A pattern also leaves out every path that contains it literally once its double asterisks are
removed, if more than one byte remains.  This is meant for a folder between double asterisks, where
it says the same as the pattern, but nothing keeps it from other patterns.
-/
import PermissionLint.Glob.Basic
import PermissionLint.Path

namespace PermissionLint

namespace Exclude

/-- A piece of a pattern. -/
inductive Piece where
  /-- A character that stands for itself. -/
  | char (c : Char)
  /-- Any character. -/
  | anyChar
  /-- A character of one of the ranges. -/
  | oneOf (ranges : List (Char × Char))
  /-- A character of none of the ranges. -/
  | noneOf (ranges : List (Char × Char))
  /-- Any text. -/
  | anyText
  /-- Any number of folders. -/
  | folders
  deriving DecidableEq, Repr

/-- What is wrong with a pattern. -/
inductive Fault where
  /-- There are more than two asterisks in a row. -/
  | wildcards
  /-- Two asterisks are not a whole part. -/
  | folders
  /-- A set of characters is not closed. -/
  | set
  deriving DecidableEq, Repr

/-- A pattern that is not well formed. -/
structure PatternError where
  /-- The number of characters before the place that is wrong. -/
  position : Nat
  fault : Fault
  deriving DecidableEq, Repr

/-- The wording of what is wrong with a pattern. -/
def Fault.message : Fault → String
  | wildcards => "wildcards are either regular `*` or recursive `**`"
  | folders => "recursive wildcards must form a single path component"
  | set => "invalid range pattern"

/-- The wording of a pattern error. -/
def PatternError.message (e : PatternError) : String :=
  s!"Pattern syntax error near position {e.position}: " ++ e.fault.message

/-- The ranges that the text between brackets lists: two characters with a hyphen between them, or
one character. -/
def rangesOf : List Char → List (Char × Char)
  | a :: '-' :: b :: cs => (a, b) :: rangesOf cs
  | c :: cs => (c, c) :: rangesOf cs
  | [] => []

/-- A set of characters that begins here, after the bracket, is closed. -/
def closesSet : List Char → Bool
  | '!' :: _ :: cs => cs.contains ']'
  | '!' :: [] => false
  | _ :: cs => cs.contains ']'
  | [] => false

mutual

/-- The pieces of a pattern, of which `position` characters have been read, the last one being
`before`. -/
def parseFrom (position : Nat) (before : Option Char) :
    List Char → Except PatternError (List Piece)
  | [] => .ok []
  | '?' :: cs => (parseFrom (position + 1) (some '?') cs).map (.anyChar :: ·)
  | '*' :: '*' :: '*' :: _ => .error ⟨position + 2, .wildcards⟩
  | ['*', '*'] => if before.all (· == '/') then .ok [.folders] else .error ⟨position - 1, .folders⟩
  | '*' :: '*' :: '/' :: cs =>
    if before.all (· == '/') then (parseFrom (position + 3) (some '/') cs).map (.folders :: ·)
    else .error ⟨position - 1, .folders⟩
  | '*' :: '*' :: _ :: _ =>
    if before.all (· == '/') then .error ⟨position + 2, .folders⟩
    else .error ⟨position - 1, .folders⟩
  | '*' :: cs => (parseFrom (position + 1) (some '*') cs).map (.anyText :: ·)
  | '[' :: '!' :: c :: cs =>
    if closesSet ('!' :: c :: cs) then parseSet (position + 3) true [c] cs
    else .error ⟨position, .set⟩
  | '[' :: c :: cs =>
    if closesSet (c :: cs) then parseSet (position + 2) false [c] cs else .error ⟨position, .set⟩
  | '[' :: [] => .error ⟨position, .set⟩
  | c :: cs => (parseFrom (position + 1) (some c) cs).map (.char c :: ·)

/-- The pieces of a pattern inside a set, of which `found` has been read, the last character
first. -/
def parseSet (position : Nat) (negated : Bool) (found : List Char) :
    List Char → Except PatternError (List Piece)
  | [] => .error ⟨position, .set⟩
  | c :: cs =>
    if c == ']' then
      let ranges := rangesOf found.reverse
      (parseFrom (position + 1) (some ']') cs).map
        ((if negated then .noneOf ranges else .oneOf ranges) :: ·)
    else parseSet (position + 1) negated (c :: found) cs

end

/-- The pieces of a pattern. -/
def parse (pattern : List Char) : Except PatternError (List Piece) := parseFrom 0 none pattern

/-- The character is in one of the ranges. -/
def inRanges (ranges : List (Char × Char)) (c : Char) : Bool :=
  ranges.any fun r => r.1.toNat ≤ c.toNat && c.toNat ≤ r.2.toNat

/-- Any number of folders, each with the separator after it. -/
def anyFolders : Glob Char :=
  .either .empty (.append (.many fun _ => true) (.one (· == '/')))

/-- The paths that a pattern stands for. -/
def glob : List Piece → Glob Char
  | [] => .empty
  | .char c :: ps => .append (.one (· == c)) (glob ps)
  | .anyChar :: ps => .append (.one fun _ => true) (glob ps)
  | .oneOf ranges :: ps => .append (.one (inRanges ranges)) (glob ps)
  | .noneOf ranges :: ps => .append (.one fun c => !inRanges ranges c) (glob ps)
  | .anyText :: ps => .append (.many fun _ => true) (glob ps)
  | [.folders] => .many fun _ => true
  | .folders :: ps => .append anyFolders (glob ps)

/-- A pattern without its double asterisks. -/
def fragment : List Char → List Char
  | '*' :: '*' :: cs => fragment cs
  | c :: cs => c :: fragment cs
  | [] => []

/-- The text contains the fragment. -/
def containsText (part : List Char) : List Char → Bool
  | [] => part.isEmpty
  | c :: cs => part.isPrefixOf (c :: cs) || containsText part cs

end Exclude

/-- A pattern for files to leave out. -/
structure Exclude where
  /-- The pattern, as it is written. -/
  pattern : List Char
  /-- The pattern, taken apart. -/
  pieces : List Exclude.Piece
  deriving DecidableEq, Repr

namespace Exclude

/-- Reads a pattern. -/
def ofPattern (pattern : String) : Except PatternError Exclude :=
  (parse pattern.toList).map fun pieces => ⟨pattern.toList, pieces⟩

/-- The pattern matches the whole path. -/
def coversPath (e : Exclude) (p : Path) : Bool := (glob e.pieces).accepts p

/-- The path contains the pattern without its double asterisks. -/
def occursIn (e : Exclude) (p : Path) : Bool :=
  let part := fragment e.pattern
  1 < part.foldr (fun c n => c.utf8Size + n) 0 && containsText part p

/-- The path is left out. -/
def leavesOut (e : Exclude) (p : Path) : Bool := e.coversPath p || e.occursIn p

end Exclude

end PermissionLint

/-
Ignore files: lines that say which files and folders below a folder are left out.

A line is empty, a comment, or a pattern.  An exclamation mark in front turns the meaning around: what
matches is kept.  A separator at the end restricts the pattern to folders.  A pattern with a separator
elsewhere starts at the folder of the file; any other one matches at every depth.  Of all lines that
match, the last one decides.  A line that is no pattern is an error, and the others still count.
-/
import PermissionLint.Ignore.Pattern
import PermissionLint.Text.Blank
import PermissionLint.Text.Lines

namespace PermissionLint.Ignore

open PermissionLint.Text

/-- A line that leaves files out or keeps them. -/
structure IgnoreRule where
  /-- What matches is kept. -/
  keeps : Bool
  /-- Only folders match. -/
  foldersOnly : Bool
  glob : Glob UInt8

/-- A line that is no pattern. -/
structure LineError where
  /-- The number of the line, from one. -/
  line : Nat
  /-- The line, without white space at its end. -/
  text : List Char
  fault : Fault
  deriving DecidableEq, Repr

/-- The wording of what is wrong with a line. -/
def LineError.message (e : LineError) : String :=
  s!"line {e.line}: error parsing glob '" ++ String.ofList e.text ++ "': " ++ e.fault.message

/-- A line without white space at its end, unless a backslash stands before the last blank. -/
def trimLine (line : List Char) : List Char :=
  if [' ', '\\'].isPrefixOf line.reverse then line else trimEnd line

/-- The line without a separator at its end and the backslash before it, if it has one. -/
def dropFinalSeparator (line : List Char) : Option (List Char) :=
  match line.reverse with
  | '/' :: '\\' :: rest => some rest.reverse
  | '/' :: rest => some rest.reverse
  | _ => none

/-- The pattern that is matched: at every depth unless it is bound to the folder, and below a folder
if it ends in two asterisks. -/
def actualPattern (isBound : Bool) (pattern : List Char) : List Char :=
  let anyDepth := ['*', '*', '/']
  let pattern :=
    if isBound || pattern.contains '/' || pattern == ['*', '*'] then pattern else anyDepth ++ pattern
  if ['*', '*', '/'].isPrefixOf pattern.reverse then pattern ++ ['/', '*'] else pattern

/-- The mark in front of a line: whether it keeps files, whether it is bound to the folder, and the
pattern after the mark. -/
def splitMark : List Char → Bool × Bool × List Char
  | '\\' :: '!' :: cs => (false, false, '!' :: cs)
  | '\\' :: '#' :: cs => (false, false, '#' :: cs)
  | '!' :: '/' :: cs => (true, true, cs)
  | '!' :: cs => (true, false, cs)
  | '/' :: cs => (false, true, cs)
  | cs => (false, false, cs)

/-- The rule that a line spells; none if it is empty or a comment. -/
def IgnoreRule.ofLine? (line : List Char) : Option (Except Fault IgnoreRule) :=
  if line.head? == some '#' || (trimLine line).isEmpty then none
  else
    let (keeps, isBound, pattern) := splitMark (trimLine line)
    let folder := dropFinalSeparator pattern
    some <| (parse (actualPattern isBound (folder.getD pattern))).map fun pieces =>
      { keeps, foldersOnly := folder.isSome, glob := patternGlob pieces }

/-- The lines of a file up to the first one that is not text. -/
def readableLines (bytes : List UInt8) : List (List Char) :=
  match Utf8.decode bytes with
  | .ok text => lines text
  | .error e =>
    match Utf8.decode (bytes.take e.offset) with
    | .ok text => ((linesInclusive text).filter fun l => l.getLast? == some '\n').map chomp
    | .error _ => []

/-- The lines of a file without a byte order mark in front. -/
def fileLines (bytes : List UInt8) : List (List Char) :=
  match readableLines bytes with
  | first :: rest => first.dropWhile (· == '\uFEFF') :: rest
  | [] => []

/-- The rules of a file. -/
def rulesOf (bytes : List UInt8) : List IgnoreRule :=
  (fileLines bytes).filterMap fun line =>
    match IgnoreRule.ofLine? line with
    | some (.ok r) => some r
    | _ => none

/-- The lines of a file that are no patterns. -/
def errorsOf (bytes : List UInt8) : List LineError :=
  (fileLines bytes).zipIdx.filterMap fun (line, n) =>
    match IgnoreRule.ofLine? line with
    | some (.error fault) => some ⟨n + 1, trimLine line, fault⟩
    | _ => none

/-- The rule is about a path below the folder of its file. -/
def IgnoreRule.applies (r : IgnoreRule) (path : List Char) (isFolder : Bool) : Bool :=
  (isFolder || !r.foldersOnly) && r.glob.accepts (Utf8.encode path)

/-- Whether rules keep a path or leave it out, if one of them is about it: the last one decides. -/
def verdict? (rules : List IgnoreRule) (path : List Char) (isFolder : Bool) : Option Bool :=
  (rules.reverse.find? (·.applies path isFolder)).map IgnoreRule.keeps

end PermissionLint.Ignore

/-
Suppression of violations by `# noqa` comments.

A directive is a hash, optional white space and the word `noqa` in upper or lower case.  With a
colon and a list of codes after it the directive is about the violations whose codes begin with one
of these; otherwise it is about all of them.  A violation is suppressed by a directive on its own
line, or on a line that its line is continued onto by a backslash at the end.
-/
import PermissionLint.Text.Blank
import PermissionLint.Text.Lines

namespace PermissionLint.Suppression

open PermissionLint.Text

/-- What a comment suppresses. -/
inductive Directive where
  /-- Everything. -/
  | all
  /-- The violations whose codes begin with one of these. -/
  | codes (cs : List (List Char))
  deriving DecidableEq, Repr

/-- Whether a violation is to be reported. -/
inductive Decision where
  /-- It is reported. -/
  | active
  /-- It is suppressed, by the codes of the directive if it has any. -/
  | suppressed (codes : Option (List (List Char)))
  deriving DecidableEq, Repr

/-- The violation is not reported. -/
def Decision.isSuppressed : Decision → Bool
  | active => false
  | suppressed _ => true

/-- A code is ASCII letters followed by digits, at least one of each. -/
def isCode (token : List Char) : Bool :=
  let digits := token.dropWhile Char.isAlpha
  !(token.takeWhile Char.isAlpha).isEmpty && !digits.isEmpty && digits.all Char.isDigit

/-- The text with its ASCII letters in upper case. -/
def upperCase (cs : List Char) : List Char := cs.map Char.toUpper

/-- The pieces between commas and white space that are not empty. -/
def tokens (cs : List Char) : List (List Char) :=
  (cs.splitOnP fun c => c == ',' || isBlank c).filter (!·.isEmpty)

/-- The directive whose word `noqa` is followed by the text. -/
def parseCodes : List Char → Directive
  | ':' :: list =>
    match ((tokens list).takeWhile isCode).map upperCase with
    | [] => .all
    | codes => .codes codes
  | _ => .all

/-- What follows the word `noqa` at the front of a comment, white space apart. -/
def afterWord? (comment : List Char) : Option (List Char) :=
  let comment := trimStart comment
  if (comment.take 4).map Char.toLower == ['n', 'o', 'q', 'a'] then some (comment.drop 4) else none

/-- The first directive of a line. -/
def parseDirective : List Char → Option Directive
  | [] => none
  | c :: cs =>
    if c == '#' then
      match afterWord? cs with
      | some rest => some (parseCodes rest)
      | none => parseDirective cs
    else parseDirective cs

/-- The line goes on in the next one: it ends in a backslash and holds no comment. -/
def continues (line : List Char) : Bool :=
  (trimEnd line).getLast? == some '\\' && !line.contains '#'

/-- The first of the lines together with those it is continued onto. -/
def chain : List (List Char) → List (List Char)
  | [] => []
  | line :: lines => if continues line then line :: chain lines else [line]

/-- What a directive decides about a code. -/
def Directive.decide (code : List Char) : Directive → Decision
  | .all => .suppressed none
  | .codes cs =>
    if cs.any fun c => c.isPrefixOf (upperCase code) then .suppressed (some cs) else .active

/-- Whether a violation with the code, on the line of the text, is to be reported.  Lines are
numbered from one. -/
def decide (text : List Char) (line : Nat) (code : List Char) : Decision :=
  match line with
  | 0 => .active
  | n + 1 =>
    match (chain ((lines text).drop n)).findSome? parseDirective with
    | some d => d.decide code
    | none => .active

end PermissionLint.Suppression

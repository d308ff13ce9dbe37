/-
Patterns of ignore files, matched against the bytes of paths below the folder of the file.

A question mark stands for one byte and an asterisk for any number of them, separators excepted.  Two
asterisks that are a whole part stand for any number of folders.  Brackets hold a set of characters,
or after an exclamation mark or a caret of characters that are not meant; a bracket that is never
closed stands for itself.  Braces hold alternatives, divided by commas.  A backslash takes the meaning
from the character after it.
-/
import PermissionLint.Glob.Basic
import PermissionLint.Text.Utf8

namespace PermissionLint.Ignore

open PermissionLint.Text

/-- What is wrong with a pattern. -/
inductive Fault where
  /-- A range ends before it starts. -/
  | range (first last : Char)
  /-- A brace closes no group of alternatives. -/
  | unopened
  /-- A group of alternatives is not closed. -/
  | unclosed
  /-- A backslash ends the pattern. -/
  | danglingEscape
  deriving DecidableEq, Repr

/-- The wording of what is wrong with a pattern. -/
def Fault.message : Fault → String
  | range first last =>
    "invalid range; '" ++ String.singleton first ++ "' > '" ++ String.singleton last ++ "'"
  | unopened =>
    "unopened alternate group; missing '\x7b' (maybe escape '\x7d' with '[\x7d]'?)"
  | unclosed =>
    "unclosed alternate group; missing '\x7d' (maybe escape '\x7b' with '[\x7b]'?)"
  | danglingEscape => "dangling '\\'"

/-- A piece of a pattern. -/
inductive Piece where
  /-- A character that stands for itself. -/
  | char (c : Char)
  /-- One byte. -/
  | anyByte
  /-- Any number of bytes. -/
  | anyBytes
  /-- A byte of a set of characters, or one that is not in it. -/
  | set (negated : Bool) (ranges : List (Char × Char))
  /-- Any number of folders at the front. -/
  | foldersFirst
  /-- Everything below a folder. -/
  | foldersLast
  /-- Any number of folders between two others. -/
  | foldersBetween
  /-- A group of alternatives; none if they all are empty. -/
  | group (g : Option (Glob UInt8))

/-! ## What pieces stand for -/

/-- The byte of the separator. -/
def separator : UInt8 := 47

/-- Any number of bytes. -/
def anything : Glob UInt8 := .many fun _ => true

/-- The separator. -/
def slash : Glob UInt8 := .one (· == separator)

/-- The bytes of a character one after the other. -/
def charGlob (c : Char) : Glob UInt8 :=
  .sequence ((Utf8.encode [c]).map fun b => .one (· == b))

/-- The byte lies in the range, taken byte by byte: what stands between the last byte of the one end
and the first byte of the other, and all their other bytes. -/
def inRange (b : UInt8) (range : Char × Char) : Bool :=
  let first := Utf8.encode [range.1]
  let last := Utf8.encode [range.2]
  if range.1 == range.2 then first.contains b
  else
    first.dropLast.contains b || last.tail.contains b
      || (first.getLastD 0 ≤ b && b ≤ last.headD 0)

/-- The texts that a piece stands for; none if it adds nothing. -/
def Piece.glob? : Piece → Option (Glob UInt8)
  | char c => some (charGlob c)
  | anyByte => some (.one (· != separator))
  | anyBytes => some (.many (· != separator))
  | set negated ranges => some (.one fun b => ranges.any (inRange b) != negated)
  | foldersFirst => some (.either .empty (.either slash (.append anything slash)))
  | foldersLast => some (.append slash anything)
  | foldersBetween => some (.append slash (.either .empty (.append anything slash)))
  | group g => g

/-- The texts that pieces one after the other stand for; none if there is nothing to match. -/
def globOf? (pieces : List Piece) : Option (Glob UInt8) :=
  match pieces.filterMap Piece.glob? with
  | [] => none
  | gs => some (.sequence gs)

/-- The alternatives, those that are empty left out. -/
def choice (alternatives : List (List Piece)) : Option (Glob UInt8) :=
  match alternatives.filterMap globOf? with
  | [] => none
  | g :: gs => some (gs.foldl .either g)

/-- The texts that a whole pattern stands for.  Two asterisks alone stand for everything. -/
def patternGlob : List Piece → Glob UInt8
  | [.foldersFirst] => anything
  | pieces => (globOf? pieces).getD .empty

/-! ## Reading -/

/-- A group of alternatives that is being read. -/
structure OpenGroup where
  /-- The pieces before the group, the last one first. -/
  before : List Piece
  /-- The alternatives that are complete, the last one first. -/
  alternatives : List (List Piece) := []

/-- What has been read of a pattern. -/
structure Reading where
  /-- The pieces of the alternative at hand, the last one first. -/
  pieces : List Piece := []
  /-- The groups it is in, the innermost first. -/
  groups : List OpenGroup := []
  /-- The last character. -/
  previous : Option Char := none
  /-- A bracket that is never closed has been found. -/
  unclosedSet : Bool := false

/-- The reading with one more piece. -/
def Reading.push (r : Reading) (p : Piece) (c : Char) : Reading :=
  { r with pieces := p :: r.pieces, previous := some c }

/-- Two asterisks behind other pieces, which are a whole part of the path. -/
def joinFolders (isLast : Bool) : List Piece → List Piece
  | .foldersFirst :: ps => .foldersFirst :: ps
  | .foldersLast :: ps => .foldersLast :: ps
  | _ :: ps => (if isLast then .foldersLast else .foldersBetween) :: ps
  | [] => []

/-- The reading of two asterisks; what follows them starts with `next`.  Tells whether the character
that follows is part of the piece. -/
def Reading.stars (r : Reading) (next : Option Char) : Reading × Bool :=
  let plain : Reading × Bool :=
    ({ r with pieces := .anyBytes :: .anyBytes :: r.pieces, previous := some '*' }, false)
  let inGroup := !r.groups.isEmpty
  let separated := next == some '/'
  if r.pieces.isEmpty then
    if next.isNone || separated then
      ({ r with pieces := [.foldersFirst], previous := some (next.getD '*') }, separated)
    else plain
  else if r.previous != some '/'
      && !(inGroup && (r.previous == some ',' || r.previous == some '\x7b')) then plain
  else if separated then
    ({ r with pieces := joinFolders false r.pieces, previous := some '/' }, true)
  else if next.isNone || (inGroup && (next == some ',' || next == some '\x7d')) then
    ({ r with pieces := joinFolders true r.pieces, previous := some '*' }, false)
  else plain

/-- A set of characters that is being read. -/
structure OpenSet where
  negated : Bool
  /-- The ranges, the last one first. -/
  ranges : List (Char × Char) := []
  /-- The last range is still to get its end. -/
  inRange : Bool := false

/-- Reads the inside of a set up to its closing bracket; none if there is none.  The first character
always belongs to the set. -/
def readSet : (isFirst : Bool) → OpenSet → List Char → Except Fault (Option (Piece × List Char))
  | _, _, [] => .ok none
  | isFirst, s, c :: cs =>
    if c == ']' && !isFirst then
      let ranges := if s.inRange then ('-', '-') :: s.ranges else s.ranges
      .ok (some (.set s.negated ranges.reverse, cs))
    else if c == '-' && !isFirst && !s.inRange then readSet false { s with inRange := true } cs
    else
      match s.inRange, s.ranges with
      | true, (first, _) :: rest =>
        if c.toNat < first.toNat then .error (.range first c)
        else readSet false { s with ranges := (first, c) :: rest, inRange := false } cs
      | _, ranges => readSet false { s with ranges := (c, c) :: ranges, inRange := false } cs

/-- Reads a set after its opening bracket. -/
def readBrackets : List Char → Except Fault (Option (Piece × List Char))
  | '!' :: cs => readSet true ⟨true, [], false⟩ cs
  | '^' :: cs => readSet true ⟨true, [], false⟩ cs
  | cs => readSet true ⟨false, [], false⟩ cs

/-- Reads on to the end of a pattern. -/
def readFrom : (fuel : Nat) → Reading → List Char → Except Fault Reading
  | 0, r, _ => .ok r
  | _ + 1, r, [] => .ok r
  | fuel + 1, r, c :: cs =>
    match c with
    | '?' => readFrom fuel (r.push .anyByte c) cs
    | '*' =>
      match cs with
      | '*' :: cs =>
        let (r, more) := r.stars cs.head?
        readFrom fuel r (if more then cs.tail else cs)
      | _ => readFrom fuel (r.push .anyBytes c) cs
    | '[' =>
      if r.unclosedSet then readFrom fuel (r.push (.char c) c) cs
      else
        match readBrackets cs with
        | .error e => .error e
        | .ok none => readFrom fuel { r.push (.char c) c with unclosedSet := true } cs
        | .ok (some (piece, rest)) => readFrom fuel (r.push piece ']') rest
    | '\x7b' =>
      readFrom fuel { r with pieces := [], groups := ⟨r.pieces, []⟩ :: r.groups, previous := some c } cs
    | '\x7d' =>
      match r.groups with
      | [] => .error .unopened
      | g :: groups =>
        let alternatives := (r.pieces :: g.alternatives).reverse.map List.reverse
        let pieces := .group (choice alternatives) :: g.before
        readFrom fuel { r with pieces, groups, previous := some c } cs
    | ',' =>
      match r.groups with
      | [] => readFrom fuel (r.push (.char c) c) cs
      | g :: groups =>
        let g := { g with alternatives := r.pieces :: g.alternatives }
        readFrom fuel { r with pieces := [], groups := g :: groups, previous := some c } cs
    | '\\' =>
      match cs with
      | [] => .error .danglingEscape
      | d :: cs => readFrom fuel (r.push (.char d) d) cs
    | _ => readFrom fuel (r.push (.char c) c) cs

/-- The pieces of a pattern. -/
def parse (pattern : List Char) : Except Fault (List Piece) :=
  match readFrom pattern.length {} pattern with
  | .error e => .error e
  | .ok r => if r.groups.isEmpty then .ok r.pieces.reverse else .error .unclosed

end PermissionLint.Ignore

/-
Paths of a hierarchical file system, with `/` between their parts.

Two paths are the same if they have the same components: repeated separators, a separator at the
end and parts that are a single dot do not count, except that a dot at the very beginning is a
component of its own.  Two dots stay.
-/

namespace PermissionLint

/-- A component of a path. -/
inductive Component where
  /-- The root of the file system. -/
  | root
  /-- A dot at the beginning. -/
  | current
  /-- Two dots. -/
  | parent
  /-- A name. -/
  | normal (name : List Char)
  deriving DecidableEq, Repr

/-- A path, as it is written. -/
abbrev Path := List Char

namespace Path

/-- The first part of a path and what stands behind the separator after it. -/
def splitFirst (p : Path) : List Char × Path :=
  (p.takeWhile (· != '/'), (p.dropWhile (· != '/')).tail)

/-- A part that is no component: it is empty or a single dot. -/
def isVoid (part : List Char) : Bool := part.isEmpty || part == ['.']

/-- The component that a part is. -/
def componentOf (part : List Char) : Component :=
  if part == ['.', '.'] then .parent else .normal part

/-- The parts between separators. -/
def parts (p : Path) : List (List Char) := p.splitOn '/'

/-- The components of a path after its beginning. -/
def innerComponents (p : Path) : List Component :=
  ((parts p).filter (!isVoid ·)).map componentOf

/-- The path begins at the root. -/
def isAbsolute (p : Path) : Bool := p.head? == some '/'

/-- The path begins with a dot of its own. -/
def beginsCurrent (p : Path) : Bool := (splitFirst p).1 == ['.']

/-- The components of a path. -/
def components (p : Path) : List Component :=
  (if p.isAbsolute then [.root] else if p.beginsCurrent then [.current] else [])
    ++ innerComponents p

/-- The last component, if it is a name. -/
def fileName? (p : Path) : Option (List Char) :=
  match p.components.getLast? with
  | some (.normal name) => some name
  | _ => none

/-- What stands behind the last dot of a name that does not begin with its only dot. -/
def extension? (p : Path) : Option (List Char) :=
  match p.fileName? with
  | none => none
  | some name =>
    if name == ['.', '.'] then none
    else
      let after := (name.reverse.takeWhile (· != '.')).reverse
      let before := name.length - after.length
      if before ≤ 1 then none else some after

/-! ## Taking paths apart -/

/-- Drops separators and void parts at the front. -/
def trimFront : (fuel : Nat) → Path → Path
  | 0, p => p
  | fuel + 1, p =>
    if p.isEmpty then p
    else if isVoid (splitFirst p).1 then trimFront fuel (splitFirst p).2 else p

/-- Drops separators and void parts at the back, but not the first `keep` characters. -/
def trimBack (keep : Nat) : (fuel : Nat) → Path → Path
  | 0, p => p
  | fuel + 1, p =>
    if p.length ≤ keep then p
    else
      let last := ((p.drop keep).reverse.takeWhile (· != '/')).reverse
      if isVoid last then trimBack keep fuel (p.take (max keep (p.length - last.length - 1))) else p

/-- The rest of a path after as many of its components as the other path has; none if those differ.
The rest is written as in the path itself, without void parts at its ends. -/
def stripPrefix? (p base : Path) : Option Path :=
  let rec body (fuel : Nat) (p : Path) (cs : List Component) : Option Path :=
    let p := trimFront p.length p
    match fuel, cs with
    | _, [] => some (trimBack 0 p.length p)
    | 0, _ => none
    | fuel + 1, c :: cs =>
      let (part, rest) := splitFirst p
      if !p.isEmpty && componentOf part == c then body fuel rest cs else none
  match base.components with
  | [] =>
    let keep := if p.isAbsolute || p.beginsCurrent then 1 else 0
    some (trimBack keep p.length p)
  | .root :: cs => if p.isAbsolute then body cs.length p.tail cs else none
  | .current :: cs => if p.beginsCurrent then body cs.length (p.drop 1) cs else none
  | cs => if p.isAbsolute || p.beginsCurrent then none else body cs.length p cs

/-- The path `q`, taken from the directory `p` unless it is absolute. -/
def join (p q : Path) : Path :=
  if q.isAbsolute then q
  else if p.isEmpty || p.getLast? == some '/' then p ++ q
  else p ++ '/' :: q

/-- The directory that holds the last component of a path. -/
def directory? (p : Path) : Option Path :=
  match p.components.getLast? with
  | none | some .root => none
  | some .current => some []
  | some _ =>
    let keep := if p.isAbsolute || p.beginsCurrent then 1 else 0
    let trimmed := trimBack keep p.length p
    let last := ((trimmed.drop keep).reverse.takeWhile (· != '/')).length
    let front := trimmed.take (trimmed.length - last)
    some (trimBack keep front.length front)

/-! ## The order of paths -/

/-- The place of a component in the order: the root, a dot, two dots, names. -/
def componentRank : Component → Nat
  | .root => 0
  | .current => 1
  | .parent => 2
  | .normal _ => 3

/-- Names come in the order of their code points, which is that of their bytes. -/
def compareNames : List Char → List Char → Ordering
  | [], [] => .eq
  | [], _ :: _ => .lt
  | _ :: _, [] => .gt
  | a :: as, b :: bs =>
    if a.toNat < b.toNat then .lt
    else if b.toNat < a.toNat then .gt
    else compareNames as bs

def compareComponents : Component → Component → Ordering
  | .normal a, .normal b => compareNames a b
  | a, b => compare (componentRank a) (componentRank b)

def compareLists : List Component → List Component → Ordering
  | [], [] => .eq
  | [], _ :: _ => .lt
  | _ :: _, [] => .gt
  | a :: as, b :: bs =>
    match compareComponents a b with
    | .eq => compareLists as bs
    | o => o

/-- Paths come component by component. -/
def compare (p q : Path) : Ordering := compareLists p.components q.components

end Path

end PermissionLint

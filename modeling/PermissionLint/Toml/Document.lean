/-
Whole configuration documents: values of any depth, tables and arrays of tables.

A table may be written in several places only as far as it has not been defined yet.  Headers and
dotted keys make the tables on their way implicitly; a header may define such a table later unless
it was made by a dotted key, and a dotted key may go on in a table only if it was made by one.
-/
import PermissionLint.Toml.Scalar

namespace PermissionLint.Toml

/-- A part of a document under construction. -/
inductive Item where
  | value (v : Value)
  /-- A table: whether it was only made on the way, and whether by a dotted key. -/
  | table (implicit dotted : Bool) (entries : List (String × Item))
  /-- An array of tables, the newest one last. -/
  | tables (items : List (List (String × Item)))

/-- The entries of a table under construction. -/
abbrev Entries := List (String × Item)

namespace Item

mutual

/-- The value that a finished item is. -/
def toValue : Item → Value
  | value v => v
  | table _ _ entries => .table (entriesToValue entries)
  | tables items => .array (tablesToValue items)

def entriesToValue : List (String × Item) → List (String × Value)
  | [] => []
  | (k, item) :: rest => (k, toValue item) :: entriesToValue rest

def tablesToValue : List (List (String × Item)) → List Value
  | [] => []
  | entries :: rest => .table (entriesToValue entries) :: tablesToValue rest

end

end Item

/-- The item under a key. -/
def Entries.get? (entries : Entries) (key : String) : Option Item :=
  (entries.find? fun e => e.1 == key).map Prod.snd

/-- The entries with another item under a key, at its old place or at the end. -/
def Entries.set (entries : Entries) (key : String) (item : Item) : Entries :=
  if entries.any fun e => e.1 == key then
    entries.map fun e => if e.1 == key then (key, item) else e
  else entries ++ [(key, item)]

/-- Changes the table at the end of a path, making the tables on the way.  `dotted` says whether the
path is that of a dotted key; the change is told whether the table was made by one. -/
def descend (dotted : Bool) (change : Bool → Entries → Option Entries) :
    (path : List String) → (isDotted : Bool) → Entries → Option Entries
  | [], isDotted, entries => change isDotted entries
  | key :: path, _, entries =>
    match entries.get? key with
    | none => (descend dotted change path dotted []).map fun inner =>
      entries.set key (.table true dotted inner)
    | some (.value _) => none
    | some (.table implicit isDotted inner) =>
      if dotted && !implicit then none
      else (descend dotted change path isDotted inner).map fun inner =>
        entries.set key (.table implicit isDotted inner)
    | some (.tables items) =>
      match items.reverse with
      | [] => none
      | last :: before =>
        (descend dotted change path false last).map fun last =>
          entries.set key (.tables (before.reverse ++ [last]))

/-- Sets the value of a key, dotted or not, in a table that was not made by a dotted key. -/
def Entries.define (entries : Entries) (path : List String) (v : Value) : Option Entries :=
  match path.reverse with
  | [] => none
  | key :: front =>
    descend true (fun isDotted inner =>
      if isDotted == front.isEmpty || (inner.get? key).isSome then none
      else some (inner ++ [(key, .value v)])) front.reverse false entries

/-! ## Values -/

/-- Skips a comment.  None if it holds a character that it may not. -/
def skipComment (cs : List Char) : Option (List Char) :=
  match cs with
  | '#' :: rest =>
    let after := rest.dropWhile isText
    match after with
    | [] => some []
    | _ => if (lineBreak? after).isSome then some after else none
  | _ => some cs

/-- Skips white space, comments and line breaks. -/
def skipLines : (fuel : Nat) → List Char → Option (List Char)
  | 0, cs => some cs
  | fuel + 1, cs =>
    match skipComment (skipWhite cs) with
    | none => none
    | some rest =>
      match lineBreak? rest with
      | some more => skipLines fuel more
      | none => some rest

mutual

/-- The value at the front of a text. -/
def readValue : (fuel : Nat) → List Char → Option (Value × List Char)
  | 0, _ => none
  | fuel + 1, cs =>
    match cs with
    | '"' :: _ | '\'' :: _ => (string? cs).map fun (s, r) => (.string s, r)
    | '[' :: rest => (readArray fuel rest).map fun (vs, r) => (.array vs, r)
    | '{' :: rest =>
      match skipWhite rest with
      | '}' :: r => some (.table [], r)
      | r => (readInline fuel [] r).map fun (es, r) => (.table (Item.entriesToValue es), r)
    | 't' :: 'r' :: 'u' :: 'e' :: r => some (.boolean true, r)
    | 'f' :: 'a' :: 'l' :: 's' :: 'e' :: r => some (.boolean false, r)
    | _ => number? cs

/-- The items of an array up to its end. -/
def readArray : (fuel : Nat) → List Char → Option (List Value × List Char)
  | 0, _ => none
  | fuel + 1, cs =>
    match skipLines cs.length cs with
    | none => none
    | some (']' :: r) => some ([], r)
    | some r =>
      match readValue fuel r with
      | none => none
      | some (v, r) =>
        match skipLines r.length r with
        | some (',' :: r) => (readArray fuel r).map fun (vs, r) => (v :: vs, r)
        | some (']' :: r) => some ([v], r)
        | _ => none

/-- The entries of an inline table up to its end. -/
def readInline : (fuel : Nat) → Entries → List Char → Option (Entries × List Char)
  | 0, _, _ => none
  | fuel + 1, entries, cs =>
    match key? (cs.length + 1) cs with
    | some (path, '=' :: r) =>
      match readValue fuel (skipWhite r) with
      | none => none
      | some (v, r) =>
        match entries.define path v with
        | none => none
        | some entries =>
          match skipWhite r with
          | ',' :: r => readInline fuel entries r
          | '}' :: r => some (entries, r)
          | _ => none
    | _ => none

end

/-! ## Documents -/

/-- A document under construction: what is finished, and the table that is being written. -/
structure Draft where
  /-- The finished tables. -/
  root : Entries := []
  /-- Where the table that is being written belongs; nowhere for the keys before all headers. -/
  path : List String := []
  /-- The table that is being written is a new one of an array. -/
  isArray : Bool := false
  /-- The entries of the table that is being written. -/
  current : Entries := []

namespace Draft

/-- Puts the table that is being written into its place. -/
def close (d : Draft) : Option Entries :=
  match d.path.reverse with
  | [] => some d.current
  | key :: front =>
    descend false (fun _ parent =>
      if d.isArray then
        match parent.get? key with
        | some (.tables items) => some (parent.set key (.tables (items ++ [d.current])))
        | _ => none
      else
        match parent.get? key with
        | none => some (parent ++ [(key, .table false false d.current)])
        | some (.table true _ _) => some (parent.set key (.table false false d.current))
        | _ => none) front.reverse false d.root

/-- The entries that a table under a path has so far. -/
def existing : (front : List String) → (key : String) → Entries → Entries
  | [], key, entries =>
    match entries.get? key with
    | some (.table _ _ inner) => inner
    | _ => []
  | k :: ks, key, entries =>
    match entries.get? k with
    | some (.table _ _ inner) => existing ks key inner
    | some (.tables items) => existing ks key (items.getLastD [])
    | _ => []

/-- Begins the table of a header, going on from what was made of it on the way to others. -/
def openTable (root : Entries) (path : List String) : Option Draft :=
  match path.reverse with
  | [] => none
  | key :: front =>
    (descend false (fun _ parent =>
      match parent.get? key with
      | none | some (.table true false _) => some parent
      | _ => none) front.reverse false root).map fun root =>
        ⟨root, path, false, existing front.reverse key root⟩

/-- Begins a new table of an array of tables. -/
def openArray (root : Entries) (path : List String) : Option Draft :=
  match path.reverse with
  | [] => none
  | key :: front =>
    (descend false (fun _ parent =>
      match parent.get? key with
      | none => some (parent ++ [(key, .tables [])])
      | some (.tables _) => some parent
      | _ => none) front.reverse false root).map fun root => ⟨root, path, true, []⟩

end Draft

/-- Goes on behind a header or a value: to the end of its line. -/
def endLine (cs : List Char) : Option (List Char) :=
  match skipComment (skipWhite cs) with
  | none => none
  | some [] => some []
  | some rest => lineBreak? rest

/-- Reads the lines of a document. -/
def readLines : (fuel : Nat) → Draft → List Char → Option Draft
  | 0, _, _ => none
  | fuel + 1, d, cs =>
    match skipLines cs.length cs with
    | none => none
    | some [] => some d
    | some ('[' :: '[' :: r) =>
      match key? (r.length + 1) r with
      | some (path, ']' :: ']' :: r) =>
        match d.close.bind fun root => Draft.openArray root path, endLine r with
        | some d, some r => readLines fuel d r
        | _, _ => none
      | _ => none
    | some ('[' :: r) =>
      match key? (r.length + 1) r with
      | some (path, ']' :: r) =>
        match d.close.bind fun root => Draft.openTable root path, endLine r with
        | some d, some r => readLines fuel d r
        | _, _ => none
      | _ => none
    | some r =>
      match key? (r.length + 1) r with
      | some (path, '=' :: r) =>
        match readValue (r.length + 1) (skipWhite r) with
        | none => none
        | some (v, r) =>
          match d.current.define path v, endLine r with
          | some current, some r => readLines fuel { d with current } r
          | _, _ => none
      | _ => none

/-- The table that a document is; none if the text is no document. -/
def parse? (text : String) : Option (List (String × Value)) :=
  let cs := match text.toList with
    | '\uFEFF' :: cs => cs
    | cs => cs
  (readLines (cs.length + 1) {} cs).bind Draft.close |>.map Item.entriesToValue

end PermissionLint.Toml

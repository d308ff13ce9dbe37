/-
The scalar values and the keys of configuration documents: strings, numbers, dates and times.

Every function takes the front of a text and answers what it found together with the rest.
-/
import PermissionLint.Toml.Value

namespace PermissionLint.Toml

open PermissionLint.Number

/-! ## Characters -/

/-- White space inside a line. -/
def isWhite (c : Char) : Bool := c == ' ' || c == '\t'

def skipWhite (cs : List Char) : List Char := cs.dropWhile isWhite

/-- A character that may stand in a comment or, apart from quotation marks, in a string. -/
def isText (c : Char) : Bool := c == '\t' || (' ' ≤ c && c ≤ '~') || 0x80 ≤ c.toNat

def isBareKey (c : Char) : Bool := c.isAlphanum || c == '_' || c == '-'

/-- A line break at the front of a text. -/
def lineBreak? : List Char → Option (List Char)
  | '\n' :: cs | '\r' :: '\n' :: cs => some cs
  | _ => none

/-! ## Strings -/

def hexDigit? (c : Char) : Option Nat :=
  if c.isDigit then some (c.toNat - 48)
  else if 'a' ≤ c && c ≤ 'f' then some (c.toNat - 87)
  else if 'A' ≤ c && c ≤ 'F' then some (c.toNat - 55)
  else none

/-- The character with the code that hexadecimal digits spell. -/
def codePoint? (digits : List Char) : Option Char := do
  let values ← digits.mapM hexDigit?
  let n := values.foldl (fun n d => n * 16 + d) 0
  if n < 0xD800 || (0xE000 ≤ n && n < 0x110000) then some (Char.ofNat n) else none

/-- The character that a short escape stands for. -/
def shortEscape? (c : Char) : Option Char :=
  if c == '"' || c == '\\' then some c
  else if c == 'n' then some '\n'
  else if c == 't' then some '\t'
  else if c == 'r' then some '\r'
  else if c == 'b' then some '\x08'
  else if c == 'f' then some '\x0c'
  else none

/-- The escape behind a backslash. -/
def escape? : List Char → Option (Char × List Char)
  | 'u' :: cs =>
    if cs.length < 4 then none else (codePoint? (cs.take 4)).map fun c => (c, cs.drop 4)
  | 'U' :: cs =>
    if cs.length < 8 then none else (codePoint? (cs.take 8)).map fun c => (c, cs.drop 8)
  | c :: cs => (shortEscape? c).map fun e => (e, cs)
  | [] => none

/-- The inside of a string in double quotation marks. -/
def basicString : (fuel : Nat) → List Char → Option (List Char × List Char)
  | 0, _ | _, [] => none
  | fuel + 1, c :: cs =>
    if c == '"' then some ([], cs)
    else if c == '\\' then
      match escape? cs with
      | some (e, rest) => (basicString fuel rest).map fun (s, r) => (e :: s, r)
      | none => none
    else if isText c then (basicString fuel cs).map fun (s, r) => (c :: s, r)
    else none

/-- The inside of a string in single quotation marks. -/
def literalString (cs : List Char) : Option (List Char × List Char) :=
  let inside := cs.takeWhile fun c => c != '\'' && isText c
  match cs.drop inside.length with
  | '\'' :: rest => some (inside, rest)
  | _ => none

/-- White space and line breaks after a backslash at the end of a line. -/
def skipBroken : List Char → List Char
  | '\r' :: '\n' :: cs => skipBroken cs
  | c :: cs => if isWhite c || c == '\n' then skipBroken cs else c :: cs
  | [] => []

/-- The inside of a string in three marks each, up to the last three of a run of marks. -/
def multiline (mark : Char) (escapes : Bool) :
    (fuel : Nat) → List Char → Option (List Char × List Char)
  | 0, _ | _, [] => none
  | fuel + 1, c :: cs =>
    if c == mark then
      let run := (cs.takeWhile (· == mark)).length + 1
      if run < 3 then (multiline mark escapes fuel cs).map fun (s, r) => (c :: s, r)
      else if run ≤ 5 then some (List.replicate (run - 3) mark, cs.drop (run - 1))
      else none
    else if c == '\\' && escapes then
      match lineBreak? (skipWhite cs) with
      | some _ => multiline mark escapes fuel (skipBroken cs)
      | none =>
        match escape? cs with
        | some (e, rest) => (multiline mark escapes fuel rest).map fun (s, r) => (e :: s, r)
        | none => none
    else
      match lineBreak? (c :: cs) with
      | some rest => (multiline mark escapes fuel rest).map fun (s, r) => ('\n' :: s, r)
      | none =>
        if isText c then (multiline mark escapes fuel cs).map fun (s, r) => (c :: s, r) else none

/-- The string at the front of a text. -/
def string? (cs : List Char) : Option (String × List Char) :=
  let fuel := cs.length + 1
  let trimmed (rest : List Char) : List Char := (lineBreak? rest).getD rest
  let made : Option (List Char × List Char) → Option (String × List Char) :=
    Option.map fun (s, r) => (String.ofList s, r)
  match cs with
  | '"' :: '"' :: '"' :: rest => made (multiline '"' true fuel (trimmed rest))
  | '"' :: rest => made (basicString fuel rest)
  | '\'' :: '\'' :: '\'' :: rest => made (multiline '\'' false fuel (trimmed rest))
  | '\'' :: rest => made (literalString rest)
  | _ => none

/-! ## Keys -/

/-- One part of a key. -/
def keyPart? (cs : List Char) : Option (String × List Char) :=
  match cs with
  | '"' :: rest => (basicString (cs.length + 1) rest).map fun (s, r) => (String.ofList s, r)
  | '\'' :: rest => (literalString rest).map fun (s, r) => (String.ofList s, r)
  | _ =>
    let bare := cs.takeWhile isBareKey
    if bare.isEmpty then none else some (String.ofList bare, cs.drop bare.length)

/-- A key: its parts, with dots between them and white space around those. -/
def key? : (fuel : Nat) → List Char → Option (List String × List Char)
  | 0, _ => none
  | fuel + 1, cs =>
    match keyPart? (skipWhite cs) with
    | none => none
    | some (part, rest) =>
      match skipWhite rest with
      | '.' :: more => (key? fuel more).map fun (parts, r) => (part :: parts, r)
      | more => some ([part], more)

/-! ## Numbers -/

/-- Digits with single underscores between them, the first one after a digit or not; answers the
digits alone. -/
def digitRunFrom (digit : Char → Bool) : (started : Bool) → List Char → List Char × List Char
  | _, [] => ([], [])
  | started, c :: cs =>
    if digit c then let (ds, r) := digitRunFrom digit true cs; (c :: ds, r)
    else if c == '_' && started && cs.head?.any digit then digitRunFrom digit false cs
    else ([], c :: cs)

/-- Digits with single underscores between them; answers the digits alone. -/
def digitRun (digit : Char → Bool) (cs : List Char) : List Char × List Char :=
  digitRunFrom digit false cs

def natOf (base : Nat) (digits : List Char) : Nat :=
  digits.foldl (fun n c => n * base + (hexDigit? c).getD 0) 0

/-- The sign at the front of a text: negative or not, and the rest. -/
def sign : List Char → Bool × List Char
  | '-' :: cs => (true, cs)
  | '+' :: cs => (false, cs)
  | cs => (false, cs)

/-- Decimal digits without a zero before others. -/
def decimalRun (cs : List Char) : List Char × List Char :=
  match cs with
  | '0' :: rest => (['0'], rest)
  | _ => digitRun Char.isDigit cs

/-- The integer is one of 64 bits. -/
def inRange (n : Int) : Bool := -0x8000000000000000 ≤ n && n < 0x8000000000000000

def integer? (cs : List Char) : Option (Value × List Char) :=
  let based (base : Nat) (digit : Char → Bool) (rest : List Char) : Option (Value × List Char) :=
    let (ds, r) := digitRun digit rest
    let n : Int := natOf base ds
    if ds.isEmpty || !inRange n then none else some (.integer n, r)
  match cs with
  | '0' :: 'x' :: rest => based 16 (fun c => (hexDigit? c).isSome) rest
  | '0' :: 'o' :: rest => based 8 (fun c => '0' ≤ c && c ≤ '7') rest
  | '0' :: 'b' :: rest => based 2 (fun c => c == '0' || c == '1') rest
  | _ =>
    let (negative, rest) := sign cs
    let (ds, r) := decimalRun rest
    let n : Int := if negative then -(natOf 10 ds : Int) else natOf 10 ds
    if ds.isEmpty || !inRange n then none else some (.integer n, r)

/-- The exponent at the front of a text. -/
def exponent? : List Char → Option (Int × List Char)
  | e :: cs =>
    if e == 'e' || e == 'E' then
      let (negative, rest) := sign cs
      let (ds, r) := digitRun Char.isDigit rest
      if ds.isEmpty then none
      else some (if negative then -(natOf 10 ds : Int) else natOf 10 ds, r)
    else none
  | [] => none

/-- A number with a fraction or an exponent, or one that is not finite. -/
def float? (cs : List Char) : Option (Value × List Char) :=
  let (negative, rest) := sign cs
  match rest with
  | 'i' :: 'n' :: 'f' :: r => some (.float (.infinity negative), r)
  | 'n' :: 'a' :: 'n' :: r => some (.float .nan, r)
  | _ =>
    let (whole, r) := decimalRun rest
    if whole.isEmpty then none
    else
      let (fraction, r) := match r with
        | '.' :: more => let (ds, r') := digitRun Char.isDigit more; if ds.isEmpty then ([], r) else (ds, r')
        | _ => ([], r)
      let made (exponent : Int) (r : List Char) : Option (Value × List Char) :=
        let x := Double.ofDecimal negative (natOf 10 (whole ++ fraction)) (exponent - fraction.length)
        if x == .infinity false then none else some (.float x, r)
      match exponent? r with
      | some (e, r) => made e r
      | none => if fraction.isEmpty then none else made 0 r

/-! ## Dates and times -/

/-- A number of exactly so many digits. -/
def fixed? (count : Nat) (cs : List Char) : Option (Nat × List Char) :=
  let ds := cs.take count
  if ds.length == count && ds.all Char.isDigit then some (natOf 10 ds, cs.drop count) else none

/-- The given character at the front of a text. -/
def expect? (c : Char) : List Char → Option (List Char)
  | d :: cs => if c == d then some cs else none
  | [] => none

def daysIn (year month : Nat) : Nat :=
  if month == 2 then
    if year % 4 == 0 && (year % 100 != 0 || year % 400 == 0) then 29 else 28
  else if month ∈ [4, 6, 9, 11] then 30
  else 31

/-- A date.  The outer answer is none where the text is no date at all, the inner one where it is a
wrong one. -/
def date? (cs : List Char) : Option (Option (Date × List Char)) := do
  let (year, r) ← fixed? 4 cs
  let r ← expect? '-' r
  return do
    let (month, r) ← fixed? 2 r
    let r ← expect? '-' r
    let (day, r) ← fixed? 2 r
    guard (1 ≤ month ∧ month ≤ 12 ∧ 1 ≤ day ∧ day ≤ daysIn year month)
    return (⟨year, month, day⟩, r)

/-- A time.  The answers are as for a date. -/
def time? (cs : List Char) : Option (Option (Time × List Char)) := do
  let (hour, r) ← fixed? 2 cs
  let r ← expect? ':' r
  return do
    let (minute, r) ← fixed? 2 r
    let r ← expect? ':' r
    let (second, r) ← fixed? 2 r
    guard (hour ≤ 23 ∧ minute ≤ 59 ∧ second ≤ 60)
    match r with
    | '.' :: more =>
      let ds := more.takeWhile Char.isDigit
      guard (!ds.isEmpty)
      let nine := (ds ++ List.replicate 9 '0').take 9
      return (⟨hour, minute, second, natOf 10 nine⟩, more.drop ds.length)
    | _ => return (⟨hour, minute, second, 0⟩, r)

/-- The distance from universal time; none inside if it is a wrong one. -/
def offset? (cs : List Char) : Option (Option (Offset × List Char)) :=
  match cs with
  | 'Z' :: r | 'z' :: r => some (some (.zulu, r))
  | c :: r =>
    if c == '+' || c == '-' then
      some do
        let (hour, r) ← fixed? 2 r
        let r ← expect? ':' r
        let (minute, r) ← fixed? 2 r
        guard (hour ≤ 23 ∧ minute ≤ 59)
        return (.minutes (c == '-') (hour * 60 + minute), r)
    else none
  | [] => none

/-- A date, a time or both.  The outer answer is none where the text is neither, the inner one where
it is a wrong one. -/
def dateTime? (cs : List Char) : Option (Option (Value × List Char)) :=
  match date? cs with
  | some none => some none
  | some (some (date, r)) =>
    let alone : Option (Option (Value × List Char)) := some (some (.datetime ⟨some date, none, none⟩, r))
    match r with
    | c :: more =>
      if c == 'T' || c == 't' || c == ' ' then
        match time? more with
        | none => alone
        | some none => some none
        | some (some (time, r)) =>
          match offset? r with
          | none => some (some (.datetime ⟨some date, some time, none⟩, r))
          | some none => some none
          | some (some (offset, r)) => some (some (.datetime ⟨some date, some time, some offset⟩, r))
      else alone
    | [] => alone
  | none =>
    match time? cs with
    | none => none
    | some none => some none
    | some (some (time, r)) => some (some (.datetime ⟨none, some time, none⟩, r))

/-- A date, a time or a number. -/
def number? (cs : List Char) : Option (Value × List Char) :=
  match dateTime? cs with
  | some answer => answer
  | none => (float? cs).orElse fun _ => integer? cs

end PermissionLint.Toml

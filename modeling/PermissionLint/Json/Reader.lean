/-
Reading JSON.

Every function takes the front of a text and answers what it found together with the rest.
-/
import PermissionLint.Json.Basic

namespace PermissionLint.Json

/-- White space between the parts of a value. -/
def isSpace (c : Char) : Bool := c == ' ' || c == '\t' || c == '\n' || c == '\r'

def skipSpace (cs : List Char) : List Char := cs.dropWhile isSpace

/-- The value of a hexadecimal digit. -/
def hexValue? (c : Char) : Option Nat :=
  if '0' ≤ c && c ≤ '9' then some (c.toNat - 48)
  else if 'a' ≤ c && c ≤ 'f' then some (c.toNat - 87)
  else if 'A' ≤ c && c ≤ 'F' then some (c.toNat - 55)
  else none

/-- The value of four hexadecimal digits. -/
def hex4? (a b c d : Char) : Option Nat := do
  let a ← hexValue? a
  let b ← hexValue? b
  let c ← hexValue? c
  let d ← hexValue? d
  return ((a * 16 + b) * 16 + c) * 16 + d

/-- The character that a short escape stands for. -/
def shortEscape? (c : Char) : Option Char :=
  if c == '"' || c == '\\' || c == '/' then some c
  else if c == 'n' then some '\n'
  else if c == 'r' then some '\r'
  else if c == 't' then some '\t'
  else if c == 'b' then some '\x08'
  else if c == 'f' then some '\x0c'
  else none

/-- The characters of a string up to its closing quotation mark. -/
def readChars : List Char → Option (List Char × List Char)
  | [] => none
  | '"' :: cs => some ([], cs)
  | '\\' :: 'u' :: a :: b :: c :: d :: cs =>
    match hex4? a b c d with
    | none => none
    | some unit =>
      if 0xD800 ≤ unit && unit < 0xDC00 then
        match cs with
        | '\\' :: 'u' :: e :: f :: g :: h :: rest =>
          match hex4? e f g h with
          | some low =>
            if 0xDC00 ≤ low && low < 0xE000 then
              (readChars rest).map fun (s, r) =>
                (Char.ofNat (0x10000 + (unit - 0xD800) * 0x400 + (low - 0xDC00)) :: s, r)
            else none
          | none => none
        | _ => none
      else if 0xDC00 ≤ unit && unit < 0xE000 then none
      else (readChars cs).map fun (s, r) => (Char.ofNat unit :: s, r)
  | '\\' :: c :: cs =>
    match shortEscape? c with
    | some e => (readChars cs).map fun (s, r) => (e :: s, r)
    | none => none
  | c :: cs =>
    if c == '\\' || c.toNat < 32 then none else (readChars cs).map fun (s, r) => (c :: s, r)

/-- The characters that numbers are written with. -/
def isNumberChar (c : Char) : Bool :=
  c.isDigit || c == '-' || c == '+' || c == '.' || c == 'e' || c == 'E'

/-- The number written with exactly these digits: no leading zero. -/
def digits? (cs : List Char) : Option Nat :=
  if cs.isEmpty || !cs.all Char.isDigit || (cs.length != 1 && cs.head? == some '0') then none
  else some (cs.foldl (fun n c => n * 10 + (c.toNat - 48)) 0)

/-- The number with this literal. -/
def ofNumber (cs : List Char) : Option Json :=
  match cs with
  | '-' :: ds =>
    match digits? ds with
    | some 0 => some (real "-0")
    | some n => some (int (-n))
    | none => if ds.any Char.isDigit then some (real (String.ofList cs)) else none
  | _ =>
    match digits? cs with
    | some n => some (int n)
    | none => if cs.any Char.isDigit then some (real (String.ofList cs)) else none

mutual

/-- The value at the front of a text. -/
def readValue : (fuel : Nat) → List Char → Option (Json × List Char)
  | 0, _ => none
  | fuel + 1, cs =>
    match skipSpace cs with
    | '"' :: rest => (readChars rest).map fun (s, r) => (str (String.ofList s), r)
    | '[' :: rest =>
      match skipSpace rest with
      | ']' :: rest => some (arr [], rest)
      | rest => (readItems fuel rest).map fun (vs, r) => (arr vs, r)
    | '{' :: rest =>
      match skipSpace rest with
      | '}' :: rest => some (obj [], rest)
      | rest => (readMembers fuel rest).map fun (ms, r) => (obj ms, r)
    | 't' :: 'r' :: 'u' :: 'e' :: rest => some (bool true, rest)
    | 'f' :: 'a' :: 'l' :: 's' :: 'e' :: rest => some (bool false, rest)
    | 'n' :: 'u' :: 'l' :: 'l' :: rest => some (null, rest)
    | rest =>
      (ofNumber (rest.takeWhile isNumberChar)).map fun v => (v, rest.dropWhile isNumberChar)

/-- The items of an array up to its end. -/
def readItems : (fuel : Nat) → List Char → Option (List Json × List Char)
  | 0, _ => none
  | fuel + 1, cs =>
    match readValue fuel cs with
    | none => none
    | some (v, rest) =>
      match skipSpace rest with
      | ',' :: rest => (readItems fuel rest).map fun (vs, r) => (v :: vs, r)
      | ']' :: rest => some ([v], rest)
      | _ => none

/-- The members of an object up to its end. -/
def readMembers : (fuel : Nat) → List Char → Option (List (String × Json) × List Char)
  | 0, _ => none
  | fuel + 1, cs =>
    match skipSpace cs with
    | '"' :: rest =>
      match readChars rest with
      | none => none
      | some (key, rest) =>
        match skipSpace rest with
        | ':' :: rest =>
          match readValue fuel rest with
          | none => none
          | some (v, rest) =>
            match skipSpace rest with
            | ',' :: rest =>
              (readMembers fuel rest).map fun (ms, r) => ((String.ofList key, v) :: ms, r)
            | '}' :: rest => some ([(String.ofList key, v)], rest)
            | _ => none
        | _ => none
    | _ => none

end

/-- The value that a text spells. -/
def parse? (text : String) : Option Json :=
  let cs := text.toList
  match readValue (cs.length + 1) cs with
  | some (v, rest) => if (skipSpace rest).isEmpty then some v else none
  | none => none

end PermissionLint.Json

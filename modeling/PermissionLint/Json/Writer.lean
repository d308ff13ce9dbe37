/-
Writing JSON: on one line, or indented by two spaces a level.

Strings are written with the short escapes where there is one and with `\u00XX` for the other
control characters; everything else stands for itself.
-/
import PermissionLint.Json.Basic

namespace PermissionLint.Json

/-- A hexadecimal digit. -/
def hexDigit (n : Nat) : Char := Char.ofNat (if n < 10 then 48 + n else 87 + n)

/-- One character inside a string. -/
def escapeChar (c : Char) : List Char :=
  if c == '"' then ['\\', '"']
  else if c == '\\' then ['\\', '\\']
  else if c == '\n' then ['\\', 'n']
  else if c == '\r' then ['\\', 'r']
  else if c == '\t' then ['\\', 't']
  else if c == '\x08' then ['\\', 'b']
  else if c == '\x0c' then ['\\', 'f']
  else if c.toNat < 32 then ['\\', 'u', '0', '0', hexDigit (c.toNat / 16), hexDigit (c.toNat % 16)]
  else [c]

/-- A string with its quotation marks. -/
def quote (s : String) : String :=
  String.ofList ('"' :: s.toList.flatMap escapeChar ++ ['"'])

/-- The pieces of a list with a separator between them. -/
def joined (sep : String) : List String → String
  | [] => ""
  | [s] => s
  | s :: ss => s ++ sep ++ joined sep ss

mutual

/-- The value on one line. -/
def render : Json → String
  | null => "null"
  | bool b => if b then "true" else "false"
  | int n => toString n
  | real literal => literal
  | str s => quote s
  | arr items => "[" ++ joined "," (renderItems items) ++ "]"
  | obj members => "\x7b" ++ joined "," (renderMembers members) ++ "\x7d"

def renderItems : List Json → List String
  | [] => []
  | v :: vs => render v :: renderItems vs

def renderMembers : List (String × Json) → List String
  | [] => []
  | (k, v) :: ms => (quote k ++ ":" ++ render v) :: renderMembers ms

end

/-- A line break and the indentation of a level. -/
def lineBreak (level : Nat) : String := String.ofList ('\n' :: List.replicate (2 * level) ' ')

/-- Brackets around lines, or nothing between them. -/
def enclosed (opening closing : String) (level : Nat) : List String → String
  | [] => opening ++ closing
  | lines =>
    opening ++ lineBreak (level + 1) ++ joined ("," ++ lineBreak (level + 1)) lines
      ++ lineBreak level ++ closing

mutual

/-- The value over several lines, at a level of indentation. -/
def prettyAt (level : Nat) : Json → String
  | null => "null"
  | bool b => if b then "true" else "false"
  | int n => toString n
  | real literal => literal
  | str s => quote s
  | arr items => enclosed "[" "]" level (prettyItems (level + 1) items)
  | obj members => enclosed "\x7b" "\x7d" level (prettyMembers (level + 1) members)

def prettyItems (level : Nat) : List Json → List String
  | [] => []
  | v :: vs => prettyAt level v :: prettyItems level vs

def prettyMembers (level : Nat) : List (String × Json) → List String
  | [] => []
  | (k, v) :: ms => (quote k ++ ": " ++ prettyAt level v) :: prettyMembers level ms

end

/-- The value over several lines. -/
def pretty (v : Json) : String := prettyAt 0 v

end PermissionLint.Json

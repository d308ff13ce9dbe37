/-
Lexemes: the spellings of tokens.

A lexeme is read at the front of a text and answers how many characters it takes.  Words are read
whole, so that a keyword is never the beginning of a longer name; operators are read as the longest
one of the language that fits, except where the grammar asks for a mark as such.
-/
import PermissionLint.Text.Word

namespace PermissionLint.Syntax

open PermissionLint.Text

/-- What may be asked for at the front of a text. -/
inductive Lexeme where
  /-- An operator or punctuation mark, being the longest one at this place. -/
  | op (spelling : String)
  /-- A punctuation mark, whatever follows it. -/
  | punct (spelling : String)
  /-- A keyword. -/
  | keyword (spelling : String)
  /-- A name that is no reserved word. -/
  | name
  /-- A name in an expression, where some keywords serve as names too. -/
  | softName
  /-- A name that is no keyword of any kind. -/
  | plainName
  /-- A name in a pattern of `case`, where a lone underscore is a wildcard. -/
  | patternName
  | integer
  | float
  /-- The conversion of an interpolated value, as in `!r`. -/
  | conversion
  /-- Literal text of a format specifier. -/
  | formatText
  /-- An escape sequence of a string. -/
  | escape
  /-- A backslash that begins no escape sequence. -/
  | backslash
  deriving DecidableEq, Repr

namespace Lexeme

/-- The words that never serve as names. -/
def reserved : List String :=
  ["False", "await", "else", "import", "pass", "None", "break", "except", "in", "raise", "True",
    "class", "finally", "is", "return", "and", "continue", "for", "lambda", "try", "as", "def",
    "from", "nonlocal", "while", "assert", "del", "global", "not", "with", "async", "elif", "if",
    "or", "yield"]

/-- The reserved words that serve as names in expressions. -/
def softReserved : List String := ["async", "await"]

/-- The keywords that serve as names wherever they cannot be keywords. -/
def contextual : List String := ["print", "exec", "match"]

/-- The operators and punctuation marks, longer ones before their beginnings. -/
def operators : List String :=
  ["...", "**=", "//=", ">>=", "<<=", "->", ":=", "==", "!=", "<=", ">=", "<>", "<<", ">>", "+=",
    "-=", "*=", "/=", "%=", "@=", "&=", "|=", "^=", "**", "//", "(", ")", "[", "]", "\x7b", "\x7d", ",",
    ":", ";", ".", "=", "<", ">", "+", "-", "*", "/", "%", "@", "&", "|", "^", "~"]

/-- The longest operator at the front of a text. -/
def operator? (cs : List Char) : Option String :=
  operators.find? fun o => o.toList.isPrefixOf cs

/-! ## Numbers -/

/-- The number of characters of `[0-9]+_?`, repeated as often as it fits. -/
def digitsAux (digit : Char → Bool) : (started : Bool) → List Char → Nat
  | _, [] => 0
  | started, c :: cs =>
    if digit c then 1 + digitsAux digit true cs
    else if c == '_' && started then 1 + digitsAux digit false cs
    else 0

/-- Decimal digits, single underscores allowed after any of them. -/
def decimals (cs : List Char) : Nat := digitsAux Char.isDigit false cs

/-- Digits of another base, single underscores allowed before any of them. -/
def basedDigits (digit : Char → Bool) : List Char → Nat
  | [] => 0
  | [c] => if digit c then 1 else 0
  | c :: d :: cs =>
    if digit c then 1 + basedDigits digit (d :: cs)
    else if c == '_' && digit d then 2 + basedDigits digit cs
    else 0

/-- The length of the text plus one if it is followed by one of the characters. -/
def suffixed (cs : List Char) (n : Nat) (marks : List Char) : Nat :=
  match cs.drop n with
  | c :: _ => if c ∈ marks then n + 1 else n
  | [] => n

/-- The integer at the front of a text, in base two, eight, ten or sixteen, possibly long or
imaginary. -/
def integer? (cs : List Char) : Option Nat :=
  let based (digit : Char → Bool) (rest : List Char) : Option Nat :=
    match basedDigits digit rest with
    | 0 => none
    | n => some (suffixed cs (n + 2) ['l', 'L'])
  let plain : Option Nat :=
    match decimals cs with
    | 0 => none
    | n => some (suffixed cs n ['l', 'L', 'j', 'J'])
  let hex (c : Char) : Bool := c.isDigit || ('a' ≤ c && c ≤ 'f') || ('A' ≤ c && c ≤ 'F')
  match cs with
  | '0' :: 'x' :: rest | '0' :: 'X' :: rest => (based hex rest).orElse fun _ => plain
  | '0' :: 'o' :: rest | '0' :: 'O' :: rest =>
    (based (fun c => '0' ≤ c && c ≤ '7') rest).orElse fun _ => plain
  | '0' :: 'b' :: rest | '0' :: 'B' :: rest =>
    (based (fun c => c == '0' || c == '1') rest).orElse fun _ => plain
  | _ => plain

/-- The exponent at the front of a text. -/
def exponent? : List Char → Option Nat
  | e :: cs =>
    if e == 'e' || e == 'E' then
      let sign := match cs with
        | '+' :: _ | '-' :: _ => 1
        | _ => 0
      match decimals (cs.drop sign) with
      | 0 => none
      | n => some (1 + sign + n)
    else none
  | [] => none

/-- The number with a fraction or an exponent at the front of a text, possibly imaginary. -/
def float? (cs : List Char) : Option Nat :=
  let whole := decimals cs
  let imaginary (n : Nat) : Nat := suffixed cs n ['j', 'J']
  match cs.drop whole with
  | '.' :: rest =>
    let fraction := decimals rest
    if whole == 0 && fraction == 0 then none
    else
      let n := whole + 1 + fraction
      some (imaginary (n + (exponent? (cs.drop n)).getD 0))
  | rest => if whole == 0 then none else (exponent? rest).map fun n => imaginary (whole + n)

/-! ## Parts of strings -/

/-- The escape sequence at the front of a text. -/
def escape? : List Char → Option Nat
  | '\\' :: c :: cs =>
    let hex (c : Char) : Bool := c.isDigit || ('a' ≤ c && c ≤ 'f') || ('A' ≤ c && c ≤ 'F')
    let exactly (n : Nat) : Option Nat :=
      if (cs.take n).length == n && (cs.take n).all hex then some (n + 2) else none
    if c == 'u' then exactly 4
    else if c == 'U' then exactly 8
    else if c == 'x' then exactly 2
    else if c.isDigit then some (2 + ((cs.take 2).takeWhile Char.isDigit).length)
    else if c == '\n' then some 2
    else if c == '\r' then if cs.head? == some '\n' then some 3 else
      none
    else if c ∈ ['\'', '"', 'a', 'b', 'f', 'r', 'n', 't', 'v', '\\'] then some 2
    else if c == 'N' then
      match cs with
      | '{' :: rest =>
        let inner := rest.takeWhile (· != '}')
        if inner.isEmpty || inner.length == rest.length then none else some (inner.length + 4)
      | _ => none
    else none
  | _ => none

/-- How many characters of the text a lexeme takes; none if it does not fit. -/
def length? (l : Lexeme) (cs : List Char) : Option Nat :=
  let ofWord (good : String → Bool) : Option Nat :=
    let word := Word.leading cs
    if word.isEmpty || !good (String.ofList word) then none else some word.length
  match l with
  | op spelling => if operator? cs == some spelling then some spelling.length else none
  | punct spelling => if spelling.toList.isPrefixOf cs then some spelling.length else none
  | keyword spelling => ofWord (· == spelling)
  | name => ofWord fun w => !(w ∈ reserved)
  | softName => ofWord fun w => w ∈ softReserved || !(w ∈ reserved)
  | plainName => ofWord fun w => !(w ∈ reserved) && !(w ∈ contextual)
  | patternName => ofWord fun w => !(w ∈ reserved) && w != "_"
  | integer => if (float? cs).any (fun n => (integer? cs).all (· < n)) then none else integer? cs
  | float => if (float? cs).any (fun n => (integer? cs).all (· < n)) then float? cs else none
  | conversion =>
    match cs with
    | '!' :: c :: _ => if c.isLower then some 2 else none
    | _ => none
  | formatText =>
    match (cs.takeWhile fun c => c != '{' && c != '}' && c != '\n').length with
    | 0 => none
    | n => some n
  | escape => escape? cs
  | backslash =>
    match cs with
    | '\\' :: _ => if (escape? cs).isSome then none else some 1
    | _ => none

end Lexeme

end PermissionLint.Syntax

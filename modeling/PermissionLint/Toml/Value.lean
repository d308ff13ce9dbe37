/-
Values of configuration documents.
-/
import PermissionLint.Number.Double

namespace PermissionLint.Toml

open PermissionLint.Number

/-- A day of the calendar. -/
structure Date where
  year : Nat
  month : Nat
  day : Nat
  deriving DecidableEq, Repr

/-- A time of the day. -/
structure Time where
  hour : Nat
  minute : Nat
  second : Nat
  nanosecond : Nat
  deriving DecidableEq, Repr

/-- The distance of a local time from universal time. -/
inductive Offset where
  /-- Universal time itself. -/
  | zulu
  /-- East of it by a number of minutes, or west of it. -/
  | minutes (west : Bool) (count : Nat)
  deriving DecidableEq, Repr

/-- A date, a time, or both, with or without the distance from universal time. -/
structure DateTime where
  date : Option Date := none
  time : Option Time := none
  offset : Option Offset := none
  deriving DecidableEq, Repr

/-- A value. -/
inductive Value where
  | string (s : String)
  | integer (n : Int)
  | float (x : Double)
  | boolean (b : Bool)
  | datetime (d : DateTime)
  | array (items : List Value)
  /-- A table, by its keys in the order they were first written. -/
  | table (entries : List (String × Value))
  deriving Repr

/-- The value under a key. -/
def lookup? (key : String) (entries : List (String × Value)) : Option Value :=
  (entries.find? fun e => e.1 == key).map Prod.snd

/-- A number with zeros before it up to the given width. -/
def zeroPadded (width n : Nat) : String :=
  let digits := Nat.toDigits 10 n
  String.ofList (List.replicate (width - digits.length) '0' ++ digits)

namespace DateTime

/-- The fraction of a second, without zeros at its end. -/
def fraction (nanosecond : Nat) : String :=
  if nanosecond == 0 then ""
  else "." ++ String.ofList (Double.dropZeros (zeroPadded 9 nanosecond).toList)

/-- The canonical text of a date or time. -/
def render (d : DateTime) : String :=
  let date := match d.date with
    | some x => zeroPadded 4 x.year ++ "-" ++ zeroPadded 2 x.month ++ "-" ++ zeroPadded 2 x.day
    | none => ""
  let time := match d.time with
    | some x =>
      zeroPadded 2 x.hour ++ ":" ++ zeroPadded 2 x.minute ++ ":" ++ zeroPadded 2 x.second
        ++ fraction x.nanosecond
    | none => ""
  let offset := match d.offset with
    | some .zulu => "Z"
    | some (.minutes west n) =>
      (if west && n != 0 then "-" else "+") ++ zeroPadded 2 (n / 60) ++ ":" ++ zeroPadded 2 (n % 60)
    | none => ""
  date ++ (if d.date.isSome && d.time.isSome then "T" else "") ++ time ++ offset

end DateTime

end PermissionLint.Toml

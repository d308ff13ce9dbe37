/-
JSON values.

Objects keep the order of their members.  Integers are exact; any other number is kept as it is
written, because nothing here computes with it.
-/

namespace PermissionLint

/-- A JSON value. -/
inductive Json where
  | null
  | bool (b : Bool)
  /-- A number written without a fraction and without an exponent. -/
  | int (n : Int)
  /-- Any other number, as it is written. -/
  | real (literal : String)
  | str (s : String)
  | arr (items : List Json)
  /-- An object, by its members in order. -/
  | obj (members : List (String × Json))
  deriving Repr

namespace Json

/-- A natural number. -/
def nat (n : Nat) : Json := int n

/-- A value that may be absent, as `null`. -/
def ofOption {α : Type} (f : α → Json) : Option α → Json
  | some a => f a
  | none => null

/-- The member of an object under a key.  If there are several, the last one counts, as in a map that
is filled in order. -/
def get? (key : String) : Json → Option Json
  | obj members => (members.reverse.find? fun m => m.1 == key).map Prod.snd
  | _ => none

def str? : Json → Option String
  | str s => some s
  | _ => none

def bool? : Json → Option Bool
  | bool b => some b
  | _ => none

def nat? : Json → Option Nat
  | int (.ofNat n) => some n
  | _ => none

def items? : Json → Option (List Json)
  | arr items => some items
  | _ => none

@[simp]
theorem nat?_nat (n : Nat) : (nat n).nat? = some n := rfl

end Json

end PermissionLint

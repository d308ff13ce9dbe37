/-
Severities: how serious a violation is.
-/

namespace PermissionLint

/-- How serious a violation is, from the least to the most serious. -/
inductive Severity where
  /-- Reported only. -/
  | info
  /-- Worth mending. -/
  | warning
  /-- To be mended. -/
  | error
  deriving DecidableEq, Repr

namespace Severity

/-- Violations are errors unless something else is said. -/
instance : Inhabited Severity := ⟨error⟩

/-- The severities in ascending order. -/
def all : List Severity := [info, warning, error]

/-- The lower-case name of a severity. -/
def name : Severity → String
  | info => "info"
  | warning => "warning"
  | error => "error"

/-- The place of a severity in the order. -/
def rank : Severity → Nat
  | info => 0
  | warning => 1
  | error => 2

/-- At least as serious as the threshold. -/
def atLeast (s threshold : Severity) : Bool := threshold.rank ≤ s.rank

/-- The severity with exactly this name. -/
def ofName? (name : String) : Option Severity := all.find? fun s => s.name == name

/-- A text with its ASCII letters in lower case. -/
def lowerCase (text : String) : List Char := text.toList.map Char.toLower

/-- The severity with this name, in upper or lower case. -/
def parse? (text : String) : Option Severity :=
  all.find? fun s => lowerCase s.name == lowerCase text

/-- The wording for a text that names no severity. -/
def unknown (text : String) : String := s!"unknown severity '{text}'"

/-- Where a padded text stands in its field. -/
inductive Alignment where
  | left
  | right
  | center
  deriving DecidableEq, Repr

/-- A text in a field of the given width, cut to the given precision first.  Centred text has the odd
blank on its right. -/
def pad (text : List Char) (width : Nat) (align : Alignment) (precision : Option Nat) : List Char :=
  let text := match precision with
    | some n => text.take n
    | none => text
  let gap := width - text.length
  let before := match align with
    | .left => 0
    | .right => gap
    | .center => gap / 2
  List.replicate before ' ' ++ text ++ List.replicate (gap - before) ' '

@[simp]
theorem ofName?_name (s : Severity) : ofName? s.name = some s := by
  cases s <;> decide

end Severity

end PermissionLint

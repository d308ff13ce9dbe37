/-
Violations and reports as JSON values, and back.

Every member is required except the suggestion; members that are not known are ignored.  A record
may also be given as an array of its members in order, and a severity as an object with its name as
the only key.

A record is read from a value, in which a key stands for one member.  Where an object repeats a key,
the last member counts; a reader that took the members of the record from the text one by one would
refuse it.  What is written here never repeats a key.
-/
import PermissionLint.Json.Basic
import PermissionLint.Report

namespace PermissionLint

namespace Json

/-- The number, if it is a machine word. -/
def word? (v : Json) : Option Nat :=
  match v.nat? with
  | some n => if n < Nat.pow 2 64 then some n else none
  | none => none

/-- The members of a record: those of an object under the given keys, or the items of an array in
the order of the keys.  An array has at least `required` items. -/
def record? (keys : List String) (required : Nat) : Json → Option (List (Option Json))
  | obj members => some (keys.map fun k => (obj members).get? k)
  | arr items =>
    if required ≤ items.length ∧ items.length ≤ keys.length then
      some (items.map some ++ List.replicate (keys.length - items.length) none)
    else none
  | _ => none

end Json

namespace Severity

def toJson (s : Severity) : Json := .str s.name

def ofJson? : Json → Option Severity
  | .str name => ofName? name
  | .obj [(name, .null)] => ofName? name
  | _ => none

end Severity

namespace Location

def toJson (l : Location) : Json :=
  .obj [("file", .str l.file), ("line", .nat l.line), ("column", .nat l.column),
    ("offset", .nat l.offset), ("length", .nat l.length)]

def ofJson? (v : Json) : Option Location :=
  match v.record? ["file", "line", "column", "offset", "length"] 5 with
  | some [some file, some line, some column, some offset, some length] => do
    return ⟨← file.str?, ← line.word?, ← column.word?, ← offset.word?, ← length.word?⟩
  | _ => none

end Location

namespace Violation

/-- The suggestion as a record of its own. -/
def suggestionToJson (hint : String) : Json := .obj [("message", .str hint)]

def suggestionOfJson? (v : Json) : Option String :=
  match v.record? ["message"] 1 with
  | some [some message] => message.str?
  | _ => none

def toJson (v : Violation) : Json :=
  .obj ([("code", .str v.code), ("rule", .str v.rule), ("severity", v.severity.toJson),
      ("location", v.location.toJson), ("message", .str v.message)]
    ++ match v.suggestion with
      | some hint => [("suggestion", suggestionToJson hint)]
      | none => [])

def ofJson? (v : Json) : Option Violation :=
  match v.record? ["code", "rule", "severity", "location", "message", "suggestion"] 5 with
  | some [some code, some rule, some severity, some location, some message, suggestion] => do
    let suggestion ← match suggestion with
      | none | some .null => some none
      | some hint => (suggestionOfJson? hint).map some
    return ⟨← code.str?, ← rule.str?, ← Severity.ofJson? severity, ← Location.ofJson? location,
      ← message.str?, suggestion⟩
  | _ => none

end Violation

namespace Report

/-- The members of a report. -/
def members (r : Report) : List (String × Json) :=
  [("violations", .arr (r.violations.map Violation.toJson)), ("files_checked", .nat r.filesChecked)]

def toJson (r : Report) : Json := .obj r.members

def ofJson? (v : Json) : Option Report :=
  match v.record? ["violations", "files_checked"] 2 with
  | some [some violations, some files] => do
    return ⟨← (← violations.items?).mapM Violation.ofJson?, ← files.word?⟩
  | _ => none

end Report

end PermissionLint

/-
What a run tells about itself, besides its result.
-/

namespace PermissionLint

/-- How much a remark matters. -/
inductive LogLevel where
  /-- For whoever follows the run in detail. -/
  | debug
  | info
  | warn
  deriving DecidableEq, Repr

/-- The name of a level. -/
def LogLevel.name : LogLevel → String
  | debug => "DEBUG"
  | info => "INFO"
  | warn => "WARN"

/-- A remark. -/
structure LogLine where
  level : LogLevel
  text : String
  deriving DecidableEq, Repr

namespace LogLine

def debug (text : String) : LogLine := ⟨.debug, text⟩

def info (text : String) : LogLine := ⟨.info, text⟩

def warn (text : String) : LogLine := ⟨.warn, text⟩

/-- The remark on one line. -/
def render (l : LogLine) : String := l.level.name ++ " " ++ l.text

end LogLine

/-- The remarks that are shown: all of them, or those that are not for details. -/
def shownLog (verbose : Bool) (log : List LogLine) : List LogLine :=
  if verbose then log else log.filter (·.level != .debug)

end PermissionLint

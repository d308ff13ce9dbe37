/-
The check for permissions as a part of a host that pulls reports one at a time.

A host starts as many readings of the reports of a file as it likes and goes on with any of them at
any time.  A reading does not look at the module before its first report is asked for.
-/
import PermissionLint.Permission.Check

namespace PermissionLint.Permission

open PermissionLint.Source PermissionLint.Model

/-- Who reports. -/
structure Reporter where
  name : String
  version : String
  deriving DecidableEq, Repr

/-- The identity that every report carries. -/
def reporter : Reporter := ⟨"drf-lint", "0.1.0"⟩

/-- What a host is told. -/
structure HostReport where
  position : Position
  message : String
  reporter : Reporter
  deriving DecidableEq, Repr

/-- A finding, as a host is told about it. -/
def HostReport.ofDiagnostic (d : Diagnostic) : HostReport :=
  ⟨d.position, Permission.message, Permission.reporter⟩

/-- All that a host can be told about a module. -/
def hostReports (m : Module) : List HostReport := (checkModule m).map HostReport.ofDiagnostic

/-- One reading of the reports of a module. -/
structure Reading where
  /-- The module, until the first report is asked for. -/
  pending : Option Module
  /-- The findings that have yet to be reported, once the module has been looked at. -/
  findings : List Diagnostic := []

namespace Reading

/-- A reading that has not been asked for anything. -/
def start (m : Module) : Reading := { pending := some m }

/-- The reading after a look at the module, if there has been none. -/
def opened (r : Reading) : Reading :=
  match r.pending with
  | some m => { pending := none, findings := checkModule m }
  | none => r

/-- The next report, and the reading after it. -/
def next (r : Reading) : Option HostReport × Reading :=
  match r.opened.findings with
  | d :: ds => (some (.ofDiagnostic d), { r.opened with findings := ds })
  | [] => (none, r.opened)

/-- All reports that are left, and the reading after them. -/
def rest (r : Reading) : List HostReport × Reading :=
  (r.opened.findings.map .ofDiagnostic, { r.opened with findings := [] })

end Reading

/-- A file in the hands of a host. -/
structure Host where
  module : Module
  fileName : String
  /-- The readings, in the order in which they were started. -/
  readings : List Reading := []

/-- What a host can do. -/
inductive Host.Step where
  /-- Asks for the name of the file. -/
  | fileName
  /-- Asks who reports. -/
  | info
  /-- Starts a reading. -/
  | run
  /-- Takes the next report of a reading. -/
  | next (reading : Nat)
  /-- Takes all that is left of a reading. -/
  | rest (reading : Nat)
  deriving DecidableEq, Repr

/-- What a host is answered. -/
inductive Host.Answer where
  | fileName (name : String)
  | info (reporter : Reporter)
  /-- The number of readings that have been started. -/
  | started (count : Nat)
  | report (r : Option HostReport)
  | reports (rs : List HostReport)
  deriving DecidableEq, Repr

namespace Host

/-- One step of a host. -/
def step (h : Host) : Step → Answer × Host
  | .fileName => (.fileName h.fileName, h)
  | .info => (.info reporter, h)
  | .run =>
    let readings := h.readings ++ [Reading.start h.module]
    (.started readings.length, { h with readings })
  | .next i =>
    match h.readings[i]? with
    | some r => (.report r.next.1, { h with readings := h.readings.set i r.next.2 })
    | none => (.report none, h)
  | .rest i =>
    match h.readings[i]? with
    | some r => (.reports r.rest.1, { h with readings := h.readings.set i r.rest.2 })
    | none => (.reports [], h)

/-- The answers to several steps. -/
def run (h : Host) : List Step → List Answer
  | [] => []
  | s :: ss => let (a, h) := h.step s; a :: run h ss

end Host

end PermissionLint.Permission

/-
The command line and the host agree.

Checking one file by the command line prints, in the format `flake8`, what a host is told about the
same module: one line for each report that no comment suppresses, by line and column, with columns
from one instead of zero (`output_check_flake8`).  Both go back to the same findings, so all that
has to be seen is which file name is printed and that sorting reports is sorting violations.
-/
import PermissionLint.Command.Run
import PermissionLint.Permission.Host
import PermissionLint.Proofs.Analyzer.Run
import PermissionLint.Proofs.FileTree
import PermissionLint.Proofs.Suppression

namespace PermissionLint.Command

open Std PermissionLint.Text PermissionLint.Syntax PermissionLint.Model PermissionLint.Permission

/-! ## The command line -/

lemma ne_hyphens_of_isPlain {argument : String} (h : isPlain argument = true) :
    (argument == "--") = false := by
  rw [beq_eq_false_iff_ne]
  rintro rfl
  revert h
  decide

/-- What the command line asks for. -/
lemma parse_check_flake8 {file : String} (hplain : isPlain file = true)
    (hne : file.isEmpty = false) :
    parse ["check", file, "--format", "flake8"]
      = .ok { action := .check { path := file.toList, format := .flake8 } } := by
  have hsplit : splitCommand Flag.general none ["check", file, "--format", "flake8"]
      = ([], some ("check", [file, "--format", "flake8"])) := rfl
  have htokens : tokens (Flag.ofTopic .check) none [file, "--format", "flake8"]
      = [.word file true, .flag .format (some "flake8")] := by
    rw [tokens, ne_hyphens_of_isPlain hplain, hplain]
    rfl
  have hsettings : Settings.ofTokens (some .check) [.word file true, .flag .format (some "flake8")]
      = .ok { path := some file.toList, format := some .flake8 } := by
    simp only [Settings.ofTokens, List.foldlM, Settings.apply, hne]
    rfl
  rw [parse, hsplit]
  change Except.bind (Settings.ofTokens (some .check)
    (tokens (Flag.ofTopic .check) none [file, "--format", "flake8"])) _ = _
  rw [htokens, hsettings]
  rfl

/-! ## The analysis of one file -/

/-- The analyzer of the command line, with the built-in configuration. -/
lemma exists_build (folder path : Path) (rules : List Rule) :
    ∃ excludes, Analyzer.build folder (some path) rules [] {} false
      = .ok ⟨folder.join path, rules, excludes, {}, false⟩ := by
  have hok : (([] ++ ({} : Config).analyzer.exclude).mapM Exclude.ofPattern).isOk = true := by
    decide +kernel
  cases hexcludes : ([] ++ ({} : Config).analyzer.exclude).mapM Exclude.ofPattern with
  | error e =>
    rw [hexcludes] at hok
    cases hok
  | ok excludes =>
    refine ⟨excludes, ?_⟩
    rw [Analyzer.build, hexcludes]
    rfl

/-- A file that holds the text of a module is read as that module. -/
lemma exists_readModule {fs : FileSystem} {p : Path} {text : List Char} {m : Module}
    (hfile : fs.readText p = .ok text) (hparse : Module.parse (String.ofList text) = .ok m) :
    ∃ bytes, fs.get p = .ok (.file (.ok bytes)) ∧ Analyzer.readModule bytes = .ok (text, m) := by
  rw [FileSystem.readText] at hfile
  split at hfile
  · next bytes hread =>
    split at hfile
    · next text' hdecode =>
      cases hfile
      refine ⟨bytes, FileSystem.read_eq_ok_iff.1 hread, ?_⟩
      rw [Analyzer.readModule, hdecode]
      dsimp only
      rw [hparse]
    · cases hfile
  · cases hfile

/-- The run over one file. -/
lemma result_analyze_file {a : Analyzer} {fs : FileSystem} {bytes : List UInt8} {text : List Char}
    {m : Module} (hget : fs.get a.root = .ok (.file (.ok bytes)))
    (hmodule : Analyzer.readModule bytes = .ok (text, m)) :
    (a.analyze fs).result = .ok ⟨List.mergeSort (a.rules.flatMap fun r =>
      (Analyzer.findings a.config (FileContext.of a.root text (a.base fs)) m r).violations)
      Analyzer.inOrder, 1⟩ := by
  have hread : Analyzer.readFile ⟨a.root, bytes⟩ = .ok (text, m) :=
    congrArg (Except.mapError _) hmodule
  have hresult : (a.checkFile (a.base fs) ⟨a.root, bytes⟩).result = .ok (a.rules.flatMap fun r =>
      (Analyzer.findings a.config (FileContext.of a.root text (a.base fs)) m r).violations) := by
    rw [Analyzer.checkFile, hread, ← List.flatMap_map]
  have hnone : [Found.mk a.root bytes].findSome? a.fault? = none := by
    rw [List.findSome?_singleton, Analyzer.fault?, hread]
  rw [Analyzer.analyze, Analyzer.rootFile?_of_file hget]
  change (a.conclude (a.checkAll fs [⟨a.root, bytes⟩])).result = _
  rw [Analyzer.conclude, Analyzer.findSome?_checkAll, hnone]
  change Except.ok (Analyzer.reportOf [a.checkFile (a.base fs) ⟨a.root, bytes⟩]) = _
  rw [Analyzer.reportOf, List.filterMap_cons, hresult]
  simp [Except.toOption]

/-- The findings that are printed: those that no comment suppresses. -/
def activeFindings (text : List Char) (m : Module) : List Diagnostic :=
  (checkModule m).filter fun d => !isSuppressed text d

lemma violations_ofConfig (file : FileContext) (m : Module) :
    ((Rule.ofConfig {}).flatMap fun r => (Analyzer.findings {} file m r).violations)
      = (activeFindings file.text m).map (violationOf .error file) := by
  have hviolations : (Permission.check {} file m).violations
      = (activeFindings file.text m).map (violationOf .error file) := violations_check rfl m
  change ((Permission.check {} file m).violations.map fun v => v) ++ [] = _
  rw [hviolations, List.map_id', List.append_nil]

/-- The file is reported by its name. -/
lemma relativePath_of_file {a : Analyzer} {fs : FileSystem} {bytes : Contents} (text : List Char)
    (hget : fs.get a.root = .ok (.file bytes)) (habsolute : a.root.isAbsolute = true) :
    (FileContext.of a.root text (a.base fs)).relativePath = a.root.lastPart := by
  obtain ⟨hvoid, hdots⟩ := FileSystem.lastPart_of_get hget
  have hfile : fs.isFile a.root = true := FileSystem.isFile_of_get hget
  rw [Analyzer.base, hfile, if_pos rfl]
  generalize a.root = root at *
  cases root with
  | nil => cases habsolute
  | cons c t =>
    obtain rfl : c = '/' := by simpa [Path.isAbsolute] using habsolute
    have hlast : Path.lastPart ('/' :: t) = Path.lastPart t := Path.lastPart_append [] t
    rw [hlast] at hvoid hdots ⊢
    obtain ⟨d, hd, hstrip⟩ := Path.stripPrefix?_directory? hvoid hdots
    rw [hd]
    change (Path.stripPrefix? ('/' :: t) d).getD ('/' :: t) = _
    rw [hstrip]
    rfl

/-- What is printed for a file, by violations. -/
lemma run_check_flake8 {s : Surroundings} {file : String} {text : List Char} {m : Module}
    (hplain : isPlain file = true) (hfolder : s.files.workingDirectory.isAbsolute = true)
    (hfile : s.files.readText file.toList = .ok text)
    (hparse : Module.parse (String.ofList text) = .ok m)
    (hconfig : (findConfig s (projectFolder s.files file.toList) none).load s.files = .ok {}) :
    ∃ context : FileContext, context.relativePath = Path.lastPart file.toList ∧
      (run s ["check", file, "--format", "flake8"]).1.output
        = String.join ((((activeFindings text m).map (violationOf .error context)).mergeSort
          Analyzer.inOrder).map fun v => v.flake8 ++ "\n") ∧
      (run s ["check", file, "--format", "flake8"]).1.failure = none := by
  obtain ⟨bytes, hget, hmodule⟩ := exists_readModule hfile hparse
  have hne : file.isEmpty = false := by
    simpa using FileSystem.ne_nil_of_get hget
  -- the root of the analysis is the path from the top
  have hroot : s.files.get (s.files.workingDirectory.join file.toList) = .ok (.file (.ok bytes)) :=
    FileSystem.get_absolute hfolder hget
  obtain ⟨excludes, hbuild⟩ := exists_build s.files.workingDirectory file.toList (Rule.ofConfig {})
  let a : Analyzer :=
    ⟨s.files.workingDirectory.join file.toList, Rule.ofConfig {}, excludes, {}, false⟩
  let context := FileContext.of a.root text (a.base s.files)
  have hname : context.relativePath = Path.lastPart file.toList := by
    rw [relativePath_of_file text hroot (Path.isAbsolute_join hfolder file.toList),
      Path.lastPart_join]
  have hviolations : (a.rules.flatMap fun r => (Analyzer.findings a.config context m r).violations)
      = (activeFindings text m).map (violationOf .error context) := violations_ofConfig context m
  have hresult : (a.analyze s.files).result = .ok ⟨((activeFindings text m).map
      (violationOf .error context)).mergeSort Analyzer.inOrder, 1⟩ := by
    rw [result_analyze_file hroot hmodule, hviolations]
  refine ⟨context, hname, ?_⟩
  rw [run, parse_check_flake8 hplain hne]
  dsimp only [Invocation.run]
  rw [check, hconfig]
  dsimp only [checkWith, chosenRules]
  rw [hbuild]
  dsimp only
  rw [hresult]
  exact ⟨rfl, rfl⟩

/-! ## Reports and violations -/

/-- The line that is printed for a report. -/
def reportLine (name : List Char) (r : HostReport) : String :=
  String.ofList name ++ ":" ++ toString r.position.line ++ ":" ++ toString (r.position.column + 1)
    ++ ": " ++ r.message ++ "\n"

lemma flake8_violationOf (file : FileContext) (d : Diagnostic) :
    (violationOf .error file d).flake8 ++ "\n"
      = reportLine file.relativePath (HostReport.ofDiagnostic d) := by
  simp only [Violation.flake8, Location.describe, violationOf, reportLine, HostReport.ofDiagnostic,
    Permission.message, String.append_assoc]

/-- The report does not come after the other one, by line and column. -/
def IsBefore (r r' : HostReport) : Prop :=
  r.position.line < r'.position.line ∨
    r.position.line = r'.position.line ∧ r.position.column ≤ r'.position.column

instance : DecidableRel IsBefore := fun _ _ => inferInstanceAs (Decidable (_ ∨ _))

lemma inOrder_violationOf (file : FileContext) (d d' : Diagnostic) :
    Analyzer.inOrder (violationOf .error file d) (violationOf .error file d') = true ↔
      IsBefore (HostReport.ofDiagnostic d) (HostReport.ofDiagnostic d') := by
  have hself : Path.compare (String.ofList file.relativePath).toList
      (String.ofList file.relativePath).toList = .eq := ReflCmp.compare_self
  simp only [Analyzer.inOrder, violationOf, hself, IsBefore, HostReport.ofDiagnostic,
    Bool.or_eq_true, Bool.and_eq_true, decide_eq_true_eq, beq_iff_eq, Nat.add_le_add_iff_right]
  exact or_congr_left decide_eq_true_iff

/-- Findings come in the order of their violations. -/
def findingsInOrder (file : FileContext) (d d' : Diagnostic) : Bool :=
  Analyzer.inOrder (violationOf .error file d) (violationOf .error file d')

lemma isOrder_findingsInOrder (file : FileContext) : IsOrder (findingsInOrder file) := by
  constructor
  · intro d d' d''
    exact Analyzer.isOrder_inOrder.trans _ _ _
  · intro d d'
    exact Analyzer.isOrder_inOrder.total _ _

/-- The violations of a file, as they are printed, are reports in order. -/
lemma exists_reports (file : FileContext) (ds : List Diagnostic) :
    ∃ printed : List HostReport, printed.Perm (ds.map HostReport.ofDiagnostic) ∧
      printed.Pairwise IsBefore ∧
      ((ds.map (violationOf .error file)).mergeSort Analyzer.inOrder).map
          (fun v => v.flake8 ++ "\n")
        = printed.map (reportLine file.relativePath) := by
  -- sorting the violations is sorting the findings
  have hmap : (ds.mergeSort (findingsInOrder file)).map (violationOf .error file)
      = (ds.map (violationOf .error file)).mergeSort Analyzer.inOrder :=
    List.map_mergeSort fun _ _ _ _ => rfl
  have hsorted := ((isOrder_findingsInOrder file).isStableSort_mergeSort ds).sorted
  refine ⟨(ds.mergeSort (findingsInOrder file)).map HostReport.ofDiagnostic,
    (List.mergeSort_perm ds (findingsInOrder file)).map _, ?_, ?_⟩
  · rw [List.pairwise_map]
    exact hsorted.imp fun h => (inOrder_violationOf file _ _).1 h
  · rw [← hmap, List.map_map, List.map_map]
    exact List.map_congr_left fun d _ => flake8_violationOf file d

/-- What a host is told that reads all reports at once. -/
lemma run_host (m : Module) (file : String) :
    (Host.mk m file []).run [.run, .rest 0] = [.started 1, .reports (hostReports m)] := rfl

/-- Reports that no comment suppresses. -/
lemma filter_hostReports (text : List Char) (m : Module) :
    (hostReports m).filter
        (fun r => !(Suppression.decide text r.position.line code.toList).isSuppressed)
      = (activeFindings text m).map HostReport.ofDiagnostic := by
  rw [hostReports, List.filter_map]
  rfl

/-- **The command line prints what a host is told.**  Checking a file in the format `flake8`, with
the built-in configuration, prints one line for each report that no comment suppresses, by line and
column; in a text without a hash these are all reports. -/
theorem output_check_flake8 {s : Surroundings} {file : String} {text : List Char} {m : Module}
    (hplain : isPlain file = true) (hfolder : s.files.workingDirectory.isAbsolute = true)
    (hfile : s.files.readText file.toList = .ok text)
    (hparse : Module.parse (String.ofList text) = .ok m)
    (hconfig : (findConfig s (projectFolder s.files file.toList) none).load s.files = .ok {}) :
    ∃ (name : List Char) (reports printed : List HostReport),
      Path.fileName? file.toList = some name ∧
      (Host.mk m file []).run [.run, .rest 0] = [.started 1, .reports reports] ∧
      printed.Perm (reports.filter fun r =>
        !(Suppression.decide text r.position.line code.toList).isSuppressed) ∧
      printed.Pairwise IsBefore ∧
      (run s ["check", file, "--format", "flake8"]).1.output
        = String.join (printed.map (reportLine name)) ∧
      (run s ["check", file, "--format", "flake8"]).1.failure = none ∧
      ('#' ∉ text → printed.Perm reports) := by
  obtain ⟨bytes, hget, -⟩ := exists_readModule hfile hparse
  obtain ⟨hvoid, hdots⟩ := FileSystem.lastPart_of_get hget
  obtain ⟨context, hname, houtput, hfailure⟩ :=
    run_check_flake8 hplain hfolder hfile hparse hconfig
  obtain ⟨printed, hperm, hsorted, hlines⟩ := exists_reports context (activeFindings text m)
  refine ⟨Path.lastPart file.toList, hostReports m, printed, Path.fileName?_of_lastPart hvoid hdots,
    run_host m file, ?_, hsorted, ?_, hfailure, ?_⟩
  · rwa [filter_hostReports]
  · rw [houtput, hlines, hname]
  · intro hhash
    -- where nothing is suppressed, all findings are active
    have hactive : activeFindings text m = checkModule m :=
      List.filter_eq_self.2 fun d _ => by
        rw [isSuppressed, Suppression.decide_of_not_mem hhash]
        rfl
    rwa [hactive] at hperm

set_option maxRecDepth 100000 in
/-- The class inside is reported after the one around it and printed before it, and a comment
suppresses the last line. -/
theorem output_check_flake8_nested :
    let text := ("class A:\n  class B: permission_classes = []\n"
      ++ "  permission_classes = ()\n  permission_classes = [] # noqa\n").toList
    let s : Surroundings :=
      { files := { top := .folder [("m.py".toList, .file (Utf8.encode text))] } }
    s.files.readText "m.py".toList = .ok text ∧
      (run s ["check", "m.py", "--format", "flake8"]).1.output
        = "m.py:2:12: " ++ message ++ "\n" ++ "m.py:3:3: " ++ message ++ "\n" := by
  intro text s
  have hsome : (Module.parse (String.ofList text)).toOption.any (fun m =>
      (hostReports m).filter (fun r =>
        !(Suppression.decide text r.position.line code.toList).isSuppressed)
          = [⟨⟨3, 2⟩, message, reporter⟩, ⟨⟨2, 11⟩, message, reporter⟩]) = true := by
    decide +kernel
  have hfile : s.files.readText "m.py".toList = .ok text := by decide +kernel
  refine ⟨hfile, ?_⟩
  cases hparse : Module.parse (String.ofList text) with
  | error e =>
    rw [hparse] at hsome
    cases hsome
  | ok m =>
    rw [hparse] at hsome
    obtain ⟨name, reports, printed, hname, hreports, hperm, hsorted, houtput, -, -⟩ :=
      output_check_flake8 (s := s) (by decide +kernel) rfl hfile hparse rfl
    cases hname
    cases hreports
    have hprinted : printed = [⟨⟨2, 11⟩, message, reporter⟩, ⟨⟨3, 2⟩, message, reporter⟩] := by
      have hfiltered := of_decide_eq_true hsome
      have hactive : printed.Perm [⟨⟨3, 2⟩, message, reporter⟩, ⟨⟨2, 11⟩, message, reporter⟩] := by
        rw [← hfiltered]
        exact hperm
      refine (hactive.trans (.swap _ _ _)).eq_of_pairwise ?_ hsorted (by decide)
      intro r r' hr hr' hbefore hafter
      rw [hactive.mem_iff] at hr
      simp only [List.mem_cons, List.not_mem_nil, or_false] at hr hr'
      rcases hr with rfl | rfl <;> rcases hr' with rfl | rfl
      · exact absurd hbefore (by decide)
      · rfl
      · rfl
      · exact absurd hafter (by decide)
    rw [houtput, hprinted]
    decide +kernel

end PermissionLint.Command

/-
Checking by a list of rules.

A rule that the list names several times, by its name or by its code, runs several times.  It then
finds the same every time, and every violation is reported as often as the rule is named
(`checkReport_listed`).  So two lists with the same rules have the same outcome if they name them
equally often (`check_of_listed`), but not in general (`check_of_listed_twice`).
-/
import PermissionLint.Command.Run
import PermissionLint.Proofs.Analyzer.Order

namespace PermissionLint

/-! ## Repeated reports -/

namespace Report

/-- The report with every violation repeated. -/
def repeated (n : Nat) (r : Report) : Report where
  violations := r.violations.flatMap (List.replicate n)
  filesChecked := r.filesChecked

/-- Repeating violations does not make them more serious. -/
lemma hasAtLeast_repeated (r : Report) (n : Nat) (threshold : Severity) :
    (r.repeated n).hasAtLeast threshold = (decide (n ≠ 0) && r.hasAtLeast threshold) := by
  rw [hasAtLeast, hasAtLeast, repeated, List.any_flatMap]
  cases n with
  | zero => simp
  | succ n => simp [List.any_replicate]

end Report

/-- A rule that is there several times reports everything several times. -/
lemma Analyzer.reportOn_replicate (a : Analyzer) (o : Permission.Options) (n : Nat) (base : Path)
    (files : List Found) :
    reportOn { a with rules := List.replicate n (Permission.rule o) } base files
      = (reportOn { a with rules := [Permission.rule o] } base files).repeated n := by
  have hone := @violationsIn_of_single { a with rules := [Permission.rule o] } _ rfl base files
  have hmany : violationsIn { a with rules := List.replicate n (Permission.rule o) } base files
      = files.flatMap fun f =>
          (List.replicate n (ruleViolations a.config base f (Permission.rule o))).flatten := by
    rw [violationsIn]
    exact List.flatMap_congr fun f _ => List.flatMap_replicate
  have hsort := isOrder_inOrder.isStableSort_mergeSort
    (files.flatMap fun f => ruleViolations a.config base f (Permission.rule o))
  have hrepeated := hsort.replicate isOrder_inOrder
    (fun f _ => pairwise_ruleViolations a.config base f o) n
  rw [reportOn, reportOn, Report.repeated, hone, hmany, hrepeated.eq_mergeSort isOrder_inOrder]

lemma Analyzer.result_analyze_replicate (a : Analyzer) (o : Permission.Options) (n : Nat)
    (fs : FileSystem) :
    ({ a with rules := List.replicate n (Permission.rule o) }.analyze fs).result
      = ({ a with rules := [Permission.rule o] }.analyze fs).result.map (Report.repeated n) := by
  have hfiles : reportedFiles { a with rules := List.replicate n (Permission.rule o) } fs
      = reportedFiles { a with rules := [Permission.rule o] } fs := rfl
  rw [result_analyze, result_analyze, hfiles]
  cases reportedFiles { a with rules := [Permission.rule o] } fs with
  | error e => rfl
  | ok files => exact congrArg Except.ok (reportOn_replicate a o n (a.base fs) files)

namespace Command

open PermissionLint.Text

/-! ## The rules in a list -/

/-- The items of a list with commas between them, without the blanks around them. -/
def items (list : String) : List String :=
  (list.toList.splitOn ',').map fun part => String.ofList (trim part)

/-- The list names the rule, by its name or its code. -/
def Names (list : String) (r : Rule) : Prop := ∃ item ∈ items list, r.answersTo item = true

/-- How often the list names the rule for permissions. -/
def timesNamed (list : String) : Nat :=
  (items list).countP fun item => Rule.answersTo item (Permission.rule {})

lemma timesNamed_ne_zero_iff {list : String} :
    timesNamed list ≠ 0 ↔ Names list (Permission.rule {}) := by
  rw [timesNamed, Names, ← Nat.pos_iff_ne_zero, List.countP_pos_iff]

/-- The rule answers to the same names however it is set up. -/
lemma find?_eq (name : String) (config : Config) :
    Rule.find? name config
      = if Rule.answersTo name (Permission.rule {}) then some (Permission.rule (.ofConfig config))
        else none := by
  have hanswers : Rule.answersTo name (Permission.rule (.ofConfig config))
      = Rule.answersTo name (Permission.rule {}) := rfl
  rw [Rule.find?, Rule.ofConfig, List.find?_singleton, hanswers]

/-- The rule is there as often as it is named. -/
lemma listedRules_eq (config : Config) (list : String) :
    listedRules config list
      = List.replicate (timesNamed list) (Permission.rule (.ofConfig config)) := by
  have hempty : Rule.answersTo "" (Permission.rule {}) = false := by decide +kernel
  rw [listedRules, listedNames, timesNamed, items]
  induction list.toList.splitOn ',' with
  | nil => rfl
  | cons part parts ih =>
    rw [List.map_cons, List.map_cons]
    cases hpart : (trim part).isEmpty with
    | true =>
      have hpart : trim part = [] := List.isEmpty_iff.1 hpart
      rw [List.filter_cons_of_neg (by simp [hpart]), ih, hpart,
        List.countP_cons_of_neg (by simpa using hempty)]
    | false =>
      rw [List.filter_cons_of_pos (by simp [hpart]), List.map_cons, List.filterMap_cons, find?_eq,
        ih, List.countP_cons]
      cases Rule.answersTo (String.ofList (trim part)) (Permission.rule {}) with
      | true => exact List.replicate_succ.symm
      | false => rfl

/-! ## The outcome of a check -/

/-- The report of a check by some rules. -/
def reportWith (fs : FileSystem) (path : Path) (patterns : List String) (config : Config)
    (rules : List Rule) : Except Failure Report :=
  match Analyzer.build fs.workingDirectory (some path) rules patterns config false with
  | .error e => .error (analysisFailure "Failed to build analyzer" e)
  | .ok a => (a.analyze fs).result.mapError (analysisFailure "Analysis failed")

/-- The configuration and the report of a check. -/
def checkReport (s : Surroundings) (named : Option Path) (o : CheckOptions) :
    Except Failure (Config × Report) :=
  match (findConfig s (projectFolder s.files o.path) named).load s.files with
  | .error failure => .error failure
  | .ok config =>
    (reportWith s.files o.path o.exclude config (chosenRules config o.rules)).map (Prod.mk config)

variable {s : Surroundings} {named : Option Path} {o : CheckOptions}

/-- A command line for a check runs it. -/
lemma run_check {arguments : List String} {i : Invocation} {o : CheckOptions}
    (hparse : parse arguments = .ok i) (haction : i.action = .check o) (s : Surroundings) :
    (run s arguments).1 = check s i.config o := by
  rw [run, hparse]
  dsimp only [Invocation.run]
  rw [haction]

/-- The outcome of a check that gives a report, and that of one that fails. -/
lemma check_eq (s : Surroundings) (named : Option Path) (o : CheckOptions) :
    match checkReport s named o with
    | .ok (config, report) =>
      (check s named o).failure = none ∧ (check s named o).status = statusOf config report ∧
        (check s named o).output
          = report.render (sourceOf s.files (projectFolder s.files o.path)) o.format
    | .error failure =>
      (check s named o).failure = some failure ∧ (check s named o).status = 1 ∧
        (check s named o).output = "" := by
  rw [checkReport, check]
  cases (findConfig s (projectFolder s.files o.path) named).load s.files with
  | error failure => exact ⟨rfl, rfl, rfl⟩
  | ok config =>
    dsimp only [checkWith, reportWith]
    cases Analyzer.build s.files.workingDirectory (some o.path) (chosenRules config o.rules)
      o.exclude config false with
    | error e => exact ⟨rfl, rfl, rfl⟩
    | ok a =>
      dsimp only
      cases (a.analyze s.files).result with
      | error e => exact ⟨rfl, rfl, rfl⟩
      | ok report => exact ⟨rfl, rfl, rfl⟩

/-- The report of a rule that is there several times. -/
lemma reportWith_replicate (fs : FileSystem) (path : Path) (patterns : List String)
    (config : Config) (o : Permission.Options) (n : Nat) :
    reportWith fs path patterns config (List.replicate n (Permission.rule o))
      = (reportWith fs path patterns config [Permission.rule o]).map (Report.repeated n) := by
  rw [reportWith, reportWith, Analyzer.build, Analyzer.build]
  cases (patterns ++ config.analyzer.exclude).mapM Exclude.ofPattern with
  | error e => rfl
  | ok excludes =>
    have hresult := Analyzer.result_analyze_replicate
      ⟨fs.workingDirectory.join path, [], excludes, config, false⟩ o n fs
    dsimp only [Option.getD_some] at hresult ⊢
    rw [hresult]
    generalize (Analyzer.analyze _ fs).result = result
    cases result <;> rfl

/-- **Every violation is reported as often as the list names the rule.** -/
theorem checkReport_listed (s : Surroundings) (named : Option Path) (o : CheckOptions)
    (list : String) :
    checkReport s named { o with rules := some list }
      = (checkReport s named { o with rules := none }).map
          fun (config, report) => (config, report.repeated (timesNamed list)) := by
  rw [checkReport, checkReport]
  dsimp only
  cases (findConfig s (projectFolder s.files o.path) named).load s.files with
  | error failure => rfl
  | ok config =>
    dsimp only [chosenRules, Rule.ofConfig]
    rw [listedRules_eq, reportWith_replicate]
    cases reportWith s.files o.path o.exclude config [Permission.rule (.ofConfig config)] <;> rfl

lemma exists_analyzer {fs : FileSystem} {path : Path} {patterns : List String} {config : Config}
    {rules : List Rule} {report : Report}
    (h : reportWith fs path patterns config rules = .ok report) :
    ∃ a : Analyzer, a.root = fs.absolute path ∧ a.rules = rules ∧
      (a.analyze fs).result = .ok report := by
  rw [reportWith, Analyzer.build] at h
  cases hpatterns : (patterns ++ config.analyzer.exclude).mapM Exclude.ofPattern with
  | error e =>
    rw [hpatterns] at h
    cases h
  | ok excludes =>
    rw [hpatterns] at h
    refine ⟨⟨fs.workingDirectory.join path, rules, excludes, config, false⟩, rfl, rfl, ?_⟩
    dsimp only [Option.getD_some] at h
    cases hresult : (Analyzer.analyze
        ⟨fs.workingDirectory.join path, rules, excludes, config, false⟩ fs).result with
    | error e =>
      rw [hresult] at h
      cases h
    | ok report' =>
      rw [hresult] at h
      exact congrArg Except.ok (Except.ok.inj h)

/-- Without a list every violation is reported once, in order. -/
lemma precedes_of_checkReport (hproper : s.files.top.IsProper) {config : Config} {report : Report}
    (h : checkReport s named { o with rules := none } = .ok (config, report)) :
    report.violations.Pairwise Violation.Precedes := by
  rw [checkReport] at h
  split at h
  · cases h
  · next c hload =>
    cases hreport : reportWith s.files o.path o.exclude c (Rule.ofConfig c) with
    | error e => cases h.symm.trans (congrArg _ hreport)
    | ok report' =>
      obtain ⟨-, rfl⟩ := Prod.mk.inj (Except.ok.inj (h.symm.trans (congrArg _ hreport)))
      obtain ⟨a, -, hrules, hresult⟩ := exists_analyzer hreport
      obtain ⟨files, hfiles, rfl⟩ := Analyzer.exists_sourceFiles hresult
      exact Analyzer.precedes_mergeSort (Analyzer.pairwise_violationsIn hrules hproper hfiles)

/-- **The rules that a list names are what counts, as long as none is named twice.**  Two lists that
name the same rules fail alike or not at all, and have the same status.  What they print is the
report of the check without a list, in which no two violations are at the same place, with every
violation repeated as often as the list names the rule; so it is the same if they name it equally
often. -/
theorem check_of_listed {s : Surroundings} (hproper : s.files.top.IsProper) (named : Option Path)
    (o : CheckOptions) {list list' : String}
    (hsame : ∀ r ∈ Rule.all, Names list r ↔ Names list' r) :
    let run (rules : Option String) : Outcome := check s named { o with rules }
    let rendered (r : Report) : String :=
      r.render (sourceOf s.files (projectFolder s.files o.path)) o.format
    (run (some list)).failure = (run none).failure ∧
      (run (some list')).failure = (run none).failure ∧
      (run (some list)).status = (run (some list')).status ∧
      ((run none).failure = none → ∃ config report,
        checkReport s named { o with rules := none } = .ok (config, report) ∧
        report.violations.Pairwise Violation.Precedes ∧
        (run none).output = rendered report ∧
        (run (some list)).output = rendered (report.repeated (timesNamed list)) ∧
        (run (some list')).output = rendered (report.repeated (timesNamed list'))) ∧
      (timesNamed list = timesNamed list' →
        (run (some list)).output = (run (some list')).output) := by
  intro run rendered
  have hnames : timesNamed list ≠ 0 ↔ timesNamed list' ≠ 0 := by
    rw [timesNamed_ne_zero_iff, timesNamed_ne_zero_iff]
    exact hsame _ (List.mem_singleton.2 rfl)
  have hall := check_eq s named { o with rules := none }
  have hlist := check_eq s named { o with rules := some list }
  have hlist' := check_eq s named { o with rules := some list' }
  rw [checkReport_listed] at hlist hlist'
  cases hreport : checkReport s named { o with rules := none } with
  | error failure =>
    rw [hreport] at hall hlist hlist'
    obtain ⟨hfailure, -, -⟩ := hall
    obtain ⟨hfailure₁, hstatus₁, houtput₁⟩ := hlist
    obtain ⟨hfailure₂, hstatus₂, houtput₂⟩ := hlist'
    refine ⟨hfailure₁.trans hfailure.symm, hfailure₂.trans hfailure.symm,
      hstatus₁.trans hstatus₂.symm, fun hnone => ?_, fun _ => houtput₁.trans houtput₂.symm⟩
    cases hfailure.symm.trans hnone
  | ok result =>
    obtain ⟨config, report⟩ := result
    rw [hreport] at hall hlist hlist'
    obtain ⟨hfailure, -, houtput⟩ := hall
    obtain ⟨hfailure₁, hstatus₁, houtput₁⟩ := hlist
    obtain ⟨hfailure₂, hstatus₂, houtput₂⟩ := hlist'
    refine ⟨hfailure₁.trans hfailure.symm, hfailure₂.trans hfailure.symm, ?_, fun _ =>
      ⟨config, report, rfl, precedes_of_checkReport hproper hreport, houtput, houtput₁, houtput₂⟩,
      fun htimes => ?_⟩
    · refine hstatus₁.trans (Eq.trans ?_ hstatus₂.symm)
      rw [statusOf, statusOf, Report.hasAtLeast_repeated, Report.hasAtLeast_repeated,
        decide_eq_decide.2 hnames]
    · refine houtput₁.trans (Eq.trans ?_ houtput₂.symm)
      rw [htimes]

set_option maxRecDepth 100000 in
/-- A name and a code, with blanks, items that are empty and one that is unknown. -/
theorem check_of_listed_spelled :
    let source := "class Open(APIView):\n    permission_classes = [AllowAny]\n".toList
    let s : Surroundings :=
      { files := { top := .folder [("v.py".toList, .file (Utf8.encode source))] } }
    let run (list : String) : Outcome := check s none { format := .json, rules := some list }
    (run " pdr001 ,,").output = (run "nothing,require-is-authenticated").output ∧
      (run " pdr001 ,,").status = (run "nothing,require-is-authenticated").status := by
  intro source s run
  have hsame : ∀ r ∈ Rule.all,
      Names " pdr001 ,," r ↔ Names "nothing,require-is-authenticated" r := by
    intro r hr
    obtain rfl := List.mem_singleton.1 hr
    rw [← timesNamed_ne_zero_iff, ← timesNamed_ne_zero_iff]
    decide +kernel
  obtain ⟨-, -, hstatus, -, houtput⟩ := @check_of_listed s ⟨by decide +kernel, by decide +kernel⟩
    none { format := .json } _ _ hsame
  exact ⟨houtput (by decide +kernel), hstatus⟩

set_option maxRecDepth 100000 in
/-- The name and the code of the rule are the same set of rules as the code alone, but every line is
printed twice. -/
theorem check_of_listed_twice :
    let source := "class Open(APIView):\n    permission_classes = [AllowAny]\n".toList
    let s : Surroundings :=
      { files := { top := .folder [("v.py".toList, .file (Utf8.encode source))] } }
    let run (list : String) : Outcome := check s none { format := .flake8, rules := some list }
    let line := "v.py:2:5: " ++ Permission.message ++ "\n"
    (∀ r ∈ Rule.all, Names "PDR001,require-is-authenticated" r ↔ Names "PDR001" r) ∧
      (run "PDR001").output = line ∧
      (run "PDR001,require-is-authenticated").output = line ++ line := by
  intro source s run line
  have hlines : (checkReport s none { format := .flake8 }).toOption.map
      (fun result => result.2.violations.map fun v => v.flake8 ++ "\n") = some [line] := by
    decide +kernel
  have hprinted : ∀ list, (run list).output
      = String.join (List.replicate (timesNamed list) line) := by
    intro list
    have hlist := check_eq s none { format := .flake8, rules := some list }
    rw [checkReport_listed s none { format := .flake8 }] at hlist
    cases hreport : checkReport s none { format := .flake8 } with
    | error failure =>
      rw [hreport] at hlines
      cases hlines
    | ok result =>
      obtain ⟨config, report⟩ := result
      rw [hreport] at hlines hlist
      obtain ⟨v, hv, hline⟩ := List.map_eq_singleton_iff.1 (Option.some.inj hlines)
      refine hlist.2.2.trans (congrArg String.join ?_)
      rw [Report.repeated, hv, List.flatMap_singleton, List.map_replicate, hline]
  refine ⟨?_, (hprinted _).trans (by decide +kernel), (hprinted _).trans (by decide +kernel)⟩
  intro r hr
  obtain rfl := List.mem_singleton.1 hr
  rw [← timesNamed_ne_zero_iff, ← timesNamed_ne_zero_iff]
  decide +kernel

end Command

end PermissionLint

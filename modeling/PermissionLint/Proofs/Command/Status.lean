/-
The status of a check and the numbers that it prints.

The status says whether there is a violation that is serious enough, and the numbers say how many
there are of each severity; both are found in the report, but in different ways.  They agree: the
status is one exactly if the numbers from the threshold upwards are not all zero, in every format
and for every report.  The report of a run is the one that its analyzer gives (`status_of_counts`).
-/
import PermissionLint.Proofs.Command.RuleList
import PermissionLint.Proofs.Report.Counts

namespace PermissionLint.Command

open PermissionLint.Text

/-- The status of a report, by its numbers. -/
lemma statusOf_eq (config : Config) (r : Report) :
    statusOf config r = if 0 < r.counts.atLeast config.failOn then 1 else 0 := by
  rw [statusOf]
  exact if_congr (r.hasAtLeast_iff config.failOn) rfl rfl

lemma statusOf_eq_one_iff {config : Config} {r : Report} :
    statusOf config r = 1 ↔ r.hasAtLeast config.failOn = true := by
  rw [statusOf]
  split <;> simp [*]

/-- Raising violations or lowering the threshold does not turn a one into a zero. -/
lemma statusOf_of_isRaised {config config' : Config} {r r' : Report} (hraised : r.IsRaised r')
    (hlowered : config.failOn.atLeast config'.failOn = true) (h : statusOf config r = 1) :
    statusOf config' r' = 1 :=
  statusOf_eq_one_iff.2 (Report.hasAtLeast_of_isRaised hraised hlowered (statusOf_eq_one_iff.1 h))

/-- The configuration of a report is the one that is found for it. -/
lemma load_of_checkReport {s : Surroundings} {named : Option Path} {o : CheckOptions}
    {config : Config} {report : Report} (h : checkReport s named o = .ok (config, report)) :
    (findConfig s (projectFolder s.files o.path) named).load s.files = .ok config := by
  rw [checkReport] at h
  split at h
  · cases h
  · next found hload =>
    rw [hload]
    cases hfound : reportWith s.files o.path o.exclude found (chosenRules found o.rules) with
    | error failure => cases h.symm.trans (congrArg _ hfound)
    | ok report' =>
      obtain ⟨rfl, -⟩ := Prod.mk.inj (Except.ok.inj (h.symm.trans (congrArg _ hfound)))
      rfl

/-- A check that prints anything prints the report that its analyzer gives. -/
lemma exists_report {s : Surroundings} {named : Option Path} {o : CheckOptions}
    (hprints : (check s named o).failure = none) :
    ∃ config report, checkReport s named o = .ok (config, report) ∧
      (check s named o).output
        = report.render (sourceOf s.files (projectFolder s.files o.path)) o.format ∧
      (check s named o).status = statusOf config report := by
  have hcheck := check_eq s named o
  cases hreport : checkReport s named o with
  | error failure =>
    rw [hreport] at hcheck
    cases hcheck.1.symm.trans hprints
  | ok result =>
    rw [hreport] at hcheck
    exact ⟨result.1, result.2, rfl, hcheck.2.2, hcheck.2.1⟩

/-- **The status agrees with the numbers that are printed.**  For every report and every threshold
the status is one if there are any violations from the threshold upwards and zero otherwise, by the
numbers that the formats `text`, `pretty` and `json` show; these are the numbers of violations of
each severity.  A status of one stays if violations are raised or the threshold is lowered.  Every
check that gets as far as printing prints the report that the analyzer gives for the configuration
that is found, whatever the format, and ends with the status of that report. -/
theorem status_of_counts :
    (∀ (config : Config) (r : Report),
      (statusOf config r = if 0 < r.counts.atLeast config.failOn then 1 else 0) ∧
      (∀ source format, Report.Shows (r.render source format) r.counts format) ∧
      (∀ s, r.counts.ofSeverity s = r.violations.countP fun v => v.severity == s) ∧
      r.counts.errors + r.counts.warnings + r.counts.infos = r.violations.length ∧
      (∀ (config' : Config) (r' : Report), r.IsRaised r' →
        config.failOn.atLeast config'.failOn = true →
          statusOf config r = 1 → statusOf config' r' = 1)) ∧
    ∀ (s : Surroundings) (arguments : List String) (i : Invocation) (o : CheckOptions),
      parse arguments = .ok i → i.action = .check o → (run s arguments).1.failure = none →
      ∃ config report, checkReport s i.config o = .ok (config, report) ∧
        (findConfig s (projectFolder s.files o.path) i.config).load s.files = .ok config ∧
        (run s arguments).1.output
          = report.render (sourceOf s.files (projectFolder s.files o.path)) o.format ∧
        (run s arguments).1.status = statusOf config report := by
  refine ⟨fun config r => ⟨statusOf_eq config r, fun source format => r.shows_render source format,
    r.ofSeverity_counts, r.total_counts, fun config' r' => statusOf_of_isRaised⟩, ?_⟩
  intro s arguments i o hparse haction hprints
  rw [run_check hparse haction s] at hprints ⊢
  obtain ⟨config, report, hreport, houtput, hstatus⟩ := exists_report hprints
  exact ⟨config, report, hreport, load_of_checkReport hreport, houtput, hstatus⟩

set_option maxRecDepth 100000 in
/-- A warning does not fail a run by default, but does if the configuration says so, and still does
once it has become an error. -/
theorem status_of_counts_warning :
    let warning : Violation := ⟨"PDR001", "", .warning, ⟨"v.py", 2, 5, 13, 18⟩, "", none⟩
    let mild : Report := ⟨[warning], 1⟩
    let severe : Report := ⟨[{ warning with severity := .error }], 1⟩
    let source := "class V:\n    permission_classes = []\n".toList
    let configuration := "[rules.require-is-authenticated]\nseverity = \"warning\"\n".toList
    let s : Surroundings :=
      { files := { top := .folder [
        ("drf-lint.toml".toList, .file (Utf8.encode configuration)),
        ("v.py".toList, .file (Utf8.encode source))] } }
    let outcome := (run s ["check", "--format", "json"]).1
    (mild.IsRaised severe ∧ statusOf { failOn := .warning } mild = 1 ∧
      statusOf { failOn := .info } severe = 1) ∧
    outcome.failure = none ∧ outcome.status = 0 ∧
      ∃ (config : Config) (report : Report),
        checkReport s none { format := .json } = .ok (config, report) ∧
        outcome.output = report.renderJson ∧ report.counts.atLeast config.failOn = 0 := by
  intro warning mild severe source configuration s outcome
  have hraised : mild.IsRaised severe := .cons rfl .nil
  have hprints : outcome.failure = none := by decide +kernel
  have hstatus : outcome.status = 0 := by decide +kernel
  obtain ⟨hcounts, hruns⟩ := status_of_counts
  refine ⟨⟨hraised, rfl, ?_⟩, hprints, hstatus, ?_⟩
  · obtain ⟨-, -, -, -, hkeeps⟩ := hcounts { failOn := .warning } mild
    exact hkeeps { failOn := .info } severe hraised rfl rfl
  · have hparse : parse ["check", "--format", "json"]
        = .ok { action := .check { format := .json } } := rfl
    obtain ⟨config, report, hreport, -, houtput, hends⟩ := hruns s _ _ _ hparse rfl hprints
    refine ⟨config, report, hreport, houtput, ?_⟩
    obtain ⟨hone, -⟩ := hcounts config report
    have hzero := hone.symm.trans (hends.symm.trans hstatus)
    split at hzero
    · cases hzero
    · omega

end PermissionLint.Command

/-
Rules do not get in each other's way.

A report does not say which of the rules in the list found a violation: two of them may have the
same name, and the violations of all rules are sorted together.  So violations are marked by the
place of their rule in the list (`markedRun`).  Without the marks a marked run is a run, and those
with the mark of one rule are what a run by that rule alone reports, because a stable sort of a part
of a list is that part of the sorted list (`violations_of_rule`).
-/
import PermissionLint.Proofs.Analyzer.Result

namespace PermissionLint

/-! ## Severities in the configuration -/

namespace Config

/-- The configuration without the severity that it gives to a rule. -/
def withoutSeverity (c : Config) (name : String) : Config where
  failOn := c.failOn
  analyzer := c.analyzer
  rules := c.rules.map fun r => if r.1 == name then (r.1, { r.2 with severity := none }) else r

variable (c : Config) (name : String)

lemma rule?_withoutSeverity :
    (c.withoutSeverity name).rule? name
      = (c.rule? name).map fun s => { s with severity := none } := by
  have hfind : (fun r : String × RuleSection => r.1 == name) ∘
        (fun r => if r.1 == name then (r.1, { r.2 with severity := none }) else r)
      = fun r => r.1 == name := by
    funext r
    dsimp only [Function.comp_apply]
    split <;> rfl
  rw [rule?, rule?, withoutSeverity, List.find?_map, hfind, Option.map_map, Option.map_map]
  cases hrule : c.rules.find? fun r => r.1 == name with
  | none => rfl
  | some r =>
    have hname := List.find?_some hrule
    rw [Option.map_some, Option.map_some, Function.comp_apply, if_pos hname]
    rfl

/-- The rule stays on or off. -/
lemma isEnabled_withoutSeverity : (c.withoutSeverity name).isEnabled name = c.isEnabled name := by
  rw [isEnabled, isEnabled, rule?_withoutSeverity]
  cases c.rule? name <;> rfl

lemma severity?_withoutSeverity : (c.withoutSeverity name).severity? name = none := by
  rw [severity?, rule?_withoutSeverity]
  cases c.rule? name <;> rfl

end Config

namespace Analyzer

/-! ## Violations with their rules -/

/-- A violation with the place of its rule in the list of rules. -/
structure Marked where
  rule : Nat
  violation : Violation
  deriving DecidableEq, Repr

/-- What the rules find in a file, each violation with its rule. -/
def markedViolations (a : Analyzer) (base : Path) (f : Found) : List Marked :=
  a.rules.zipIdx.flatMap fun (r, i) => (ruleViolations a.config base f r).map (Marked.mk i)

/-- The order of violations, whatever their rules. -/
def Marked.inOrder (v w : Marked) : Bool := Analyzer.inOrder v.violation w.violation

/-- What is reported on some files, each violation with its rule. -/
def markedReport (a : Analyzer) (base : Path) (files : List Found) : List Marked :=
  (files.flatMap (a.markedViolations base)).mergeSort Marked.inOrder

/-- The violations of a run, each with its rule. -/
def markedRun (a : Analyzer) (fs : FileSystem) : Except AnalysisError (List Marked) :=
  (a.reportedFiles fs).map (a.markedReport (a.base fs))

/-- The violations of one rule among marked ones. -/
def ofRule (i : Nat) (vs : List Marked) : List Violation :=
  (vs.filter (·.rule == i)).map Marked.violation

lemma isOrder_marked : IsOrder Marked.inOrder where
  trans _ _ _ := isOrder_inOrder.trans _ _ _
  total _ _ := isOrder_inOrder.total _ _

/-- Sorting does not look at the marks. -/
lemma map_violation_mergeSort (vs : List Marked) :
    (vs.mergeSort Marked.inOrder).map Marked.violation
      = (vs.map Marked.violation).mergeSort inOrder :=
  List.map_mergeSort fun _ _ _ _ => rfl

variable {a : Analyzer} {i : Nat} {r : Rule}

lemma map_violation_markedViolations (base : Path) (f : Found) :
    (a.markedViolations base f).map Marked.violation
      = a.rules.flatMap (ruleViolations a.config base f) := by
  have herase : ∀ (vs : List Violation) (i : Nat),
      (vs.map (Marked.mk i)).map Marked.violation = vs := by
    intro vs i
    rw [List.map_map]
    exact List.map_id vs
  rw [markedViolations, List.map_flatMap]
  simp only [herase]
  rw [← List.flatMap_map, List.zipIdx_map_fst]

/-- Without the marks, what is reported with marks is what is reported. -/
lemma map_violation_markedReport (base : Path) (files : List Found) :
    (a.markedReport base files).map Marked.violation = (a.reportOn base files).violations := by
  rw [markedReport, map_violation_mergeSort, List.map_flatMap]
  simp only [map_violation_markedViolations]
  rfl

/-! ## The violations of one rule -/

lemma ofRule_append (i : Nat) (vs ws : List Marked) :
    ofRule i (vs ++ ws) = ofRule i vs ++ ofRule i ws := by
  rw [ofRule, List.filter_append, List.map_append]
  rfl

lemma ofRule_map_mk (i : Nat) (vs : List Violation) : ofRule i (vs.map (Marked.mk i)) = vs := by
  rw [ofRule, List.filter_map, List.filter_eq_self.2 (by simp), List.map_map]
  exact List.map_id vs

lemma ofRule_eq_nil {vs : List Marked} (h : ∀ v ∈ vs, v.rule ≠ i) : ofRule i vs = [] := by
  rw [ofRule, List.filter_eq_nil_iff.2 fun v hv => by simpa using h v hv]
  rfl

/-- Every mark stands for one rule of the list. -/
lemma ofRule_flatMap_zipIdx {rules : List Rule} (find : Rule → List Violation) (n : Nat)
    (hr : rules[i]? = some r) :
    ofRule (n + i) ((rules.zipIdx n).flatMap fun (r, j) => (find r).map (Marked.mk j))
      = find r := by
  induction rules generalizing n i with
  | nil => simp at hr
  | cons q rules ih =>
    rw [List.zipIdx_cons, List.flatMap_cons, ofRule_append]
    cases i with
    | zero =>
      obtain rfl : q = r := by simpa using hr
      -- the other rules have greater marks
      have hrest : ofRule (n + 0) ((rules.zipIdx (n + 1)).flatMap
          fun (r, j) => (find r).map (Marked.mk j)) = [] := by
        refine ofRule_eq_nil fun v hv => ?_
        obtain ⟨⟨q, j⟩, hj, hv⟩ := List.mem_flatMap.1 hv
        obtain ⟨w, -, rfl⟩ := List.mem_map.1 hv
        have hle := List.le_snd_of_mem_zipIdx hj
        dsimp only at hle ⊢
        omega
      rw [hrest, List.append_nil]
      exact ofRule_map_mk n (find q)
    | succ i =>
      have hfirst : ofRule (n + (i + 1)) ((find q).map (Marked.mk n)) = [] := by
        refine ofRule_eq_nil fun v hv => ?_
        obtain ⟨w, -, rfl⟩ := List.mem_map.1 hv
        dsimp only
        omega
      rw [hfirst, List.nil_append, ← Nat.add_assoc, Nat.add_right_comm]
      exact ih (n + 1) (by simpa using hr)

/-- Of what is reported, one rule found what it finds in the files, in order. -/
lemma ofRule_markedReport (hr : a.rules[i]? = some r) (base : Path) (files : List Found) :
    ofRule i (a.markedReport base files)
      = (files.flatMap fun f => ruleViolations a.config base f r).mergeSort inOrder := by
  have hsort := (isOrder_marked.isStableSort_mergeSort
    (files.flatMap (a.markedViolations base))).filter (·.rule == i)
  have hfile : ∀ f, ofRule i (a.markedViolations base f) = ruleViolations a.config base f r := by
    intro f
    have hzip := ofRule_flatMap_zipIdx (ruleViolations a.config base f) 0 hr
    rw [Nat.zero_add] at hzip
    exact hzip
  rw [ofRule, markedReport, hsort.eq_mergeSort isOrder_marked, map_violation_mergeSort,
    List.filter_flatMap, List.map_flatMap]
  exact congrArg (List.mergeSort · inOrder) (List.flatMap_congr fun f _ => hfile f)

/-- That is what a run by the rule alone reports. -/
lemma ofRule_eq_reportOn (hr : a.rules[i]? = some r) (base : Path) (files : List Found) :
    ofRule i (a.markedReport base files)
      = (reportOn { a with rules := [r] } base files).violations := by
  have hsingle := @violationsIn_of_single { a with rules := [r] } r rfl base files
  rw [ofRule_markedReport hr, reportOn, hsingle]

lemma ruleViolations_of_disabled {c : Config} (h : c.isEnabled r.name = false) (base : Path)
    (f : Found) : ruleViolations c base f r = [] := by
  rw [ruleViolations]
  split
  · rw [findings, h]
    rfl
  · rfl

/-- The severity in the configuration changes nothing but severities. -/
lemma ruleViolations_withoutSeverity {c : Config} {severity : Severity}
    (h : c.severity? r.name = some severity) (base : Path) (f : Found) :
    ruleViolations c base f r
      = (ruleViolations (c.withoutSeverity r.name) base f r).map fun v => { v with severity } := by
  rw [ruleViolations, ruleViolations]
  split
  · rw [findings, findings, c.isEnabled_withoutSeverity, c.severity?_withoutSeverity, h]
    split
    · dsimp only
      rw [List.map_map]
      rfl
    · rfl
  · rfl

/-- The order of violations does not depend on their severities. -/
lemma map_severity_mergeSort (severity : Severity) (vs : List Violation) :
    (vs.mergeSort inOrder).map (fun v => { v with severity })
      = (vs.map fun v => { v with severity }).mergeSort inOrder :=
  List.map_mergeSort fun _ _ _ _ => rfl

/-- The violations of a rule are those without its severity in the configuration, with that
severity. -/
lemma ofRule_withoutSeverity (hr : a.rules[i]? = some r) {severity : Severity}
    (h : a.config.severity? r.name = some severity) (base : Path) (files : List Found) :
    ofRule i (a.markedReport base files)
      = (ofRule i ({ a with config := a.config.withoutSeverity r.name }.markedReport base
          files)).map fun v => { v with severity } := by
  have hrun := @ofRule_markedReport { a with config := a.config.withoutSeverity r.name } i r hr base
    files
  rw [ofRule_markedReport hr, hrun, map_severity_mergeSort, List.map_flatMap]
  refine congrArg (List.mergeSort · inOrder) (List.flatMap_congr fun f _ => ?_)
  exact ruleViolations_withoutSeverity h base f

/-! ## The violations of a run -/

/-- **Rules do not get in each other's way.**  Of the violations of a run, those of one rule are
what the run by that rule alone reports, in the same order; there are none if the configuration
turns the rule off.  A severity in the configuration is that of all of them and makes no other
difference.  How many files are checked does not depend on the rules. -/
theorem violations_of_rule (a : Analyzer) (fs : FileSystem) :
    (a.markedRun fs).map (List.map Marked.violation)
        = (a.analyze fs).result.map Report.violations ∧
      (∀ (i : Nat) (r : Rule), a.rules[i]? = some r →
        (a.markedRun fs).map (ofRule i)
            = ({ a with rules := [r] }.analyze fs).result.map Report.violations ∧
          (a.config.isEnabled r.name = false →
            ∀ vs, a.markedRun fs = .ok vs → ofRule i vs = []) ∧
          ∀ severity, a.config.severity? r.name = some severity →
            (a.markedRun fs).map (ofRule i)
              = ({ a with config := a.config.withoutSeverity r.name }.markedRun fs).map
                  fun vs => (ofRule i vs).map fun v : Violation => { v with severity }) ∧
      ∀ rules, ({ a with rules }.analyze fs).result.map Report.filesChecked
        = (a.analyze fs).result.map Report.filesChecked := by
  refine ⟨?_, fun i r hr => ⟨?_, ?_, fun severity hseverity => ?_⟩, fun rules => ?_⟩
  · rw [markedRun, result_analyze]
    cases a.reportedFiles fs with
    | error e => rfl
    | ok files => exact congrArg Except.ok (map_violation_markedReport (a.base fs) files)
  · have hfiles : reportedFiles { a with rules := [r] } fs = a.reportedFiles fs := rfl
    rw [markedRun, result_analyze, hfiles]
    cases a.reportedFiles fs with
    | error e => rfl
    | ok files => exact congrArg Except.ok (ofRule_eq_reportOn hr (a.base fs) files)
  · intro hoff vs hvs
    rw [markedRun] at hvs
    cases hfiles : a.reportedFiles fs with
    | error e =>
      rw [hfiles] at hvs
      cases hvs
    | ok files =>
      rw [hfiles] at hvs
      cases hvs
      have hnil : files.flatMap (fun f => ruleViolations a.config (a.base fs) f r) = [] :=
        List.flatMap_eq_nil_iff.2 fun f _ => ruleViolations_of_disabled hoff (a.base fs) f
      rw [ofRule_markedReport hr, hnil, List.mergeSort_nil]
  · have hfiles : reportedFiles { a with config := a.config.withoutSeverity r.name } fs
        = a.reportedFiles fs := rfl
    rw [markedRun, markedRun, hfiles]
    cases a.reportedFiles fs with
    | error e => rfl
    | ok files => exact congrArg Except.ok (ofRule_withoutSeverity hr hseverity (a.base fs) files)
  · have hfiles : reportedFiles { a with rules } fs = a.reportedFiles fs := rfl
    rw [result_analyze, result_analyze, hfiles]
    cases a.reportedFiles fs <;> rfl

set_option maxRecDepth 100000 in
/-- Four rules of which two are the same and one is off, with all violations at the same place. -/
theorem violations_of_rule_tied :
    let rule (name : String) : Rule :=
      { name, code := name, check := fun file _ =>
          { violations := [Severity.error, .info].map fun severity =>
              ⟨name, name, severity, ⟨String.ofList file.relativePath, 1, 1, 0, 0⟩, "", none⟩ } }
    let fs : FileSystem := { top := .folder [("a.py".toList, .file (.ok []))] }
    let config : Config :=
      { rules := [("x", { severity := some .warning }), ("y", { enabled := some false })] }
    let a : Analyzer :=
      ⟨"/a.py".toList, [rule "x", rule "y", rule "z", rule "x"], [], config, false⟩
    ∃ vs, a.markedRun fs = .ok vs ∧ vs.map Marked.rule = [0, 0, 2, 2, 3, 3] ∧ ofRule 1 vs = [] ∧
      ({ a with rules := [rule "x"] }.analyze fs).result.map Report.violations
        = .ok (ofRule 3 vs) ∧
      ∀ v ∈ ofRule 3 vs, v.severity = .warning := by
  intro rule fs config a
  obtain ⟨-, hrule, -⟩ := violations_of_rule a fs
  have hfiles : a.sourceFiles fs = .ok [⟨a.root, .ok []⟩] := rfl
  have hrun : a.markedRun fs = .ok (a.markedReport (a.base fs) [⟨a.root, .ok []⟩]) := by
    have haccess : ∀ f ∈ [Found.mk a.root (.ok [])], IsAccessible f :=
      List.forall_mem_singleton.2 ⟨[], rfl⟩
    rw [markedRun, reportedFiles_of_lenient rfl haccess hfiles]
    rfl
  obtain ⟨-, hoff, -⟩ := hrule 1 (rule "y") rfl
  obtain ⟨halone, -, hseverity⟩ := hrule 3 (rule "x") rfl
  refine ⟨_, hrun, ?_, hoff (by decide +kernel) _ hrun, ?_, ?_⟩
  · -- violations that are tied stay as they are
    rw [markedReport, List.mergeSort_of_pairwise]
    · decide +kernel
    · decide +kernel
  · rw [← halone, hrun]
    rfl
  · have hsame := hseverity .warning (by decide +kernel)
    rw [hrun] at hsame
    cases hother : markedRun { a with config := a.config.withoutSeverity "x" } fs with
    | error e => cases hsame.trans (congrArg _ hother)
    | ok ws =>
      intro v hv
      rw [Except.ok.inj (hsame.trans (congrArg _ hother))] at hv
      obtain ⟨w, -, rfl⟩ := List.mem_map.1 hv
      rfl

end Analyzer

end PermissionLint

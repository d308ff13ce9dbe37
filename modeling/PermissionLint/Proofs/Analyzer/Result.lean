/-
What a run gives, without its remarks.

The files to check are the root itself or what is selected below it (`sourceFiles`).  A file may be
one that cannot be read, that is not text or that is not well formed; any other one is looked at by
all rules.  A run ends with the first file that cannot be read and, if it is strict, with the first
of any of these; all other runs report what the rules find in the files (`result_analyze`).
-/
import PermissionLint.Proofs.Analyzer.Run
import PermissionLint.Proofs.Walk.Distinct

namespace PermissionLint.Analyzer

open Std PermissionLint.Text PermissionLint.Syntax PermissionLint.Model

/-! ## Files -/

/-- The files that a run checks: the root if it is a file, or what is selected below it. -/
def sourceFiles (a : Analyzer) (fs : FileSystem) : Except WalkError (List Found) :=
  match a.rootFile? fs with
  | some f => .ok [f]
  | none => (a.discover fs).map a.select

/-- What a rule finds in a file, as the configuration sees it; nothing if the file is not
readable. -/
def ruleViolations (c : Config) (base : Path) (f : Found) (r : Rule) : List Violation :=
  match readFile f with
  | .ok (text, m) => (findings c (FileContext.of f.path text base) m r).violations
  | .error _ => []

/-- What the rules find in some files, in the order of the files and then of the rules. -/
def violationsIn (a : Analyzer) (base : Path) (files : List Found) : List Violation :=
  files.flatMap fun f => a.rules.flatMap (ruleViolations a.config base f)

/-- The report on some files. -/
def reportOn (a : Analyzer) (base : Path) (files : List Found) : Report where
  violations := (a.violationsIn base files).mergeSort inOrder
  filesChecked := files.countP isReadable

/-- The files that are reported on, unless the run ends with one of them. -/
def accept (a : Analyzer) (files : List Found) : Except AnalysisError (List Found) :=
  match files.findSome? a.fault? with
  | some e => .error e
  | none => .ok files

/-- The files that a run reports on, or why it does not. -/
def reportedFiles (a : Analyzer) (fs : FileSystem) : Except AnalysisError (List Found) :=
  match a.sourceFiles fs with
  | .error e => .error (.walk e)
  | .ok files => a.accept files

variable {a : Analyzer} {fs : FileSystem} {files : List Found}

lemma ruleViolations_of_not_isReadable {f : Found} (h : isReadable f = false) (c : Config)
    (base : Path) (r : Rule) : ruleViolations c base f r = [] := by
  rw [isReadable] at h
  rw [ruleViolations]
  cases hread : readFile f with
  | error e => rfl
  | ok read =>
    rw [hread] at h
    cases h

lemma toOption_checkFile (base : Path) (f : Found) :
    (a.checkFile base f).result.toOption
      = if isReadable f then some (a.rules.flatMap (ruleViolations a.config base f)) else none := by
  have hrule : ruleViolations a.config base f = fun r => ruleViolations a.config base f r := rfl
  rw [checkFile, isReadable, hrule]
  simp only [ruleViolations]
  cases readFile f with
  | error e => rfl
  | ok read =>
    change some ((a.rules.map _).flatMap Findings.violations) = _
    rw [List.flatMap_map]
    rfl

/-- With a single rule, the violations are those of the rule. -/
lemma violationsIn_of_single {r : Rule} (h : a.rules = [r]) (base : Path) (files : List Found) :
    a.violationsIn base files = files.flatMap fun f => ruleViolations a.config base f r := by
  rw [violationsIn, h]
  exact List.flatMap_congr fun f _ => List.flatMap_singleton _ _

/-- Only readable files are reported on. -/
lemma reportOn_filter (base : Path) (files : List Found) :
    a.reportOn base (files.filter isReadable) = a.reportOn base files := by
  have hviolations : a.violationsIn base (files.filter isReadable) = a.violationsIn base files := by
    rw [violationsIn, violationsIn]
    induction files with
    | nil => rfl
    | cons f files ih =>
      cases hread : isReadable f with
      | true => rw [List.filter_cons_of_pos hread, List.flatMap_cons, List.flatMap_cons, ih]
      | false =>
        have hnil : a.rules.flatMap (ruleViolations a.config base f) = [] :=
          List.flatMap_eq_nil_iff.2 fun r _ => ruleViolations_of_not_isReadable hread _ _ r
        rw [List.filter_cons_of_neg (by simp [hread]), List.flatMap_cons, hnil, ih]
        rfl
  have hcount : (files.filter isReadable).countP isReadable = files.countP isReadable := by
    rw [List.countP_filter]
    exact List.countP_congr fun f _ => by simp
  rw [reportOn, reportOn, hviolations, hcount]

lemma reportOf_checkAll (files : List Found) :
    reportOf (a.checkAll fs files) = a.reportOn (a.base fs) files := by
  have hdone : (a.checkAll fs files).filterMap (fun c => c.result.toOption)
      = (files.filter isReadable).map fun f =>
          a.rules.flatMap (ruleViolations a.config (a.base fs) f) := by
    rw [checkAll, List.filterMap_map, ← List.filterMap_eq_map, List.filterMap_filter]
    exact List.filterMap_congr fun f _ => toOption_checkFile (a.base fs) f
  rw [← reportOn_filter, reportOf, hdone, reportOn, List.length_map, List.countP_filter,
    ← List.countP_eq_length_filter]
  simp only [Bool.and_self]
  rfl

lemma result_analyzeFiles_eq (fs : FileSystem) (files : List Found) :
    (a.analyzeFiles fs files).result = (a.accept files).map (a.reportOn (a.base fs)) := by
  change (a.conclude (a.checkAll fs files)).result = _
  rw [conclude, accept, findSome?_checkAll, reportOf_checkAll]
  cases files.findSome? a.fault? <;> rfl

/-- **What a run gives**: the report on its files, unless they cannot be found or the run ends with
one of them. -/
theorem result_analyze (a : Analyzer) (fs : FileSystem) :
    (a.analyze fs).result = (a.reportedFiles fs).map (a.reportOn (a.base fs)) := by
  rw [analyze, reportedFiles, sourceFiles]
  cases a.rootFile? fs with
  | some f => exact result_analyzeFiles_eq fs _
  | none =>
    cases a.discover fs with
    | error e => rfl
    | ok found => exact result_analyzeFiles_eq fs _

lemma accept_eq_ok_iff {accepted : List Found} :
    a.accept files = .ok accepted ↔ accepted = files ∧ ∀ f ∈ files, a.fault? f = none := by
  rw [accept, ← List.findSome?_eq_none_iff]
  cases files.findSome? a.fault? with
  | none => simp [eq_comm]
  | some e => simp

/-- A lenient run reports on all files if their bytes can be read. -/
lemma reportedFiles_of_lenient (h : a.strict = false) (haccess : ∀ f ∈ files, IsAccessible f)
    (hfiles : a.sourceFiles fs = .ok files) : a.reportedFiles fs = .ok files := by
  rw [reportedFiles, hfiles]
  exact accept_eq_ok_iff.2 ⟨rfl, fun f hf => fault?_of_isAccessible h (haccess f hf)⟩

/-- The files that a run reports on are those that it checks. -/
lemma sourceFiles_of_reportedFiles (h : a.reportedFiles fs = .ok files) :
    a.sourceFiles fs = .ok files := by
  rw [reportedFiles] at h
  cases hfiles : a.sourceFiles fs with
  | error e =>
    rw [hfiles] at h
    cases h
  | ok checked =>
    rw [hfiles] at h
    rw [(accept_eq_ok_iff.1 h).1]

/-- A run that gives a report gives that on its files. -/
lemma exists_sourceFiles {report : Report} (h : (a.analyze fs).result = .ok report) :
    ∃ files, a.sourceFiles fs = .ok files ∧ report = a.reportOn (a.base fs) files := by
  rw [result_analyze] at h
  cases hfiles : a.reportedFiles fs with
  | error e =>
    rw [hfiles] at h
    cases h
  | ok files =>
    rw [hfiles] at h
    exact ⟨files, sourceFiles_of_reportedFiles hfiles, (Except.ok.inj h).symm⟩

/-! ## The order of files -/

/-- What a walk finds is below the root, and every file is there once. -/
lemma walksBelow_of_discover (hproper : fs.top.IsProper) {found : List Found}
    (hfound : a.discover fs = .ok found) : WalksBelow a.root found := by
  obtain ⟨hdistinct, hbelow⟩ := components_walk hproper hfound
  exact ⟨hdistinct, hbelow⟩

/-- Whatever the order in which files were found, they are selected in the same one. -/
lemma select_eq_of_perm {found order : List Found} (h : WalksBelow a.root found)
    (hperm : order.Perm found) : a.select order = a.select found := by
  have hfiles : (a.select order).Perm (a.select found) :=
    ((List.mergeSort_perm _ _).trans (hperm.filter _)).trans (List.mergeSort_perm _ _).symm
  exact eq_of_perm_of_sorted hfiles (select_sorted (h.perm hperm)) (select_sorted h)

/-- The files come from the root, which is a file, or from a walk through a folder. -/
lemma sourceFiles_cases (h : a.sourceFiles fs = .ok files) :
    (∃ bytes, fs.get a.root = .ok (.file bytes) ∧ files = [⟨a.root, bytes⟩]) ∨
      ∃ entries found, fs.get a.root = .ok (.folder entries) ∧ a.discover fs = .ok found ∧
        files = a.select found := by
  rw [sourceFiles] at h
  cases hroot : a.rootFile? fs with
  | some f =>
    rw [hroot] at h
    cases h
    rw [rootFile?] at hroot
    split at hroot
    · next bytes hget =>
      cases hroot
      exact .inl ⟨bytes, hget, rfl⟩
    · cases hroot
  | none =>
    rw [hroot] at h
    cases hfound : a.discover fs with
    | error e =>
      rw [hfound] at h
      cases h
    | ok found =>
      rw [hfound] at h
      cases h
      obtain ⟨names, tree, hresolve, hat, -, -⟩ := walk_eq_ok_iff.1 hfound
      have hget : fs.get a.root = .ok tree := FileSystem.get_eq_ok_iff.2 ⟨names, hresolve, hat⟩
      cases tree with
      | file bytes => cases hroot.symm.trans (rootFile?_of_file hget)
      | folder entries => exact .inr ⟨entries, found, hget, rfl, rfl⟩

end PermissionLint.Analyzer
